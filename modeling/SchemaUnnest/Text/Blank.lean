import SchemaUnnest.Text

namespace SchemaUnnest

def CodePoint.isBlank (c : CodePoint) : Bool :=
  [(0x09, 0x0D), (0x1C, 0x20), (0x85, 0x85), (0xA0, 0xA0), (0x1680, 0x1680), (0x2000, 0x200A),
    (0x2028, 0x2029), (0x202F, 0x202F), (0x205F, 0x205F), (0x3000, 0x3000)].any
    fun (first, last) => first ≤ c.value && c.value ≤ last

def Text.isBlank (text : Text) : Bool := text.all CodePoint.isBlank

end SchemaUnnest
