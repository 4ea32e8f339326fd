import SchemaUnnest.Text

namespace SchemaUnnest.Keyword

def properties : Text := "properties"

def definitions : Text := "definitions"

def items : Text := "items"

def ref : Text := "$ref"

def definitionsPointer : Text := "#/definitions/"

def itemEnding : Text := "_item"

end SchemaUnnest.Keyword
