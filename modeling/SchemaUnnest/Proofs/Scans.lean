import Mathlib.Data.List.Infix
import Mathlib.Data.List.TakeWhile
import SchemaUnnest.Json.Reader

namespace SchemaUnnest.Json

theorem ok_of_map {ε α β : Type} {change : α → β} {found : Except ε α} {out : β} (h : found.map change = .ok out) :
    ∃ value, found = .ok value ∧ change value = out := by
  cases found with
  | error => cases h
  | ok value => exact ⟨value, rfl, Except.ok.inj h⟩

theorem fault_of_map {ε α β : Type} {change : α → β} {found : Except ε α} {fault : ε}
    (h : found.map change = .error fault) : found = .error fault := by
  cases found with
  | error other => exact congrArg _ (Except.error.inj h)
  | ok value => cases h

def Leaves (text rest : Text) : Prop := rest <:+ text ∧ rest.length < text.length

section Leaves

variable {text middle rest : Text} {c : CodePoint}

theorem Leaves.within (inner : middle <:+ text) (h : Leaves middle rest) : Leaves text rest := by
  have shorter := inner.length_le
  exact ⟨h.1.trans inner, by have := h.2; omega⟩

theorem Leaves.before (h : Leaves text middle) (inner : rest <:+ middle) : Leaves text rest := by
  have shorter := inner.length_le
  exact ⟨inner.trans h.1, by have := h.2; omega⟩

theorem leaves_cons (inner : rest <:+ text) : Leaves (c :: text) rest := by
  have shorter := inner.length_le
  exact ⟨inner.trans (List.suffix_cons c text), by rw [List.length_cons]; omega⟩

theorem leaves_append {taken : Text} (some : taken ≠ []) : Leaves (taken ++ rest) rest := by
  have length := List.length_pos_iff.2 some
  exact ⟨List.suffix_append taken rest, by rw [List.length_append]; omega⟩

theorem skipSpace_suffix (text : Text) : skipSpace text <:+ text := List.dropWhile_suffix _

theorem suffix_of_skipSpace (h : skipSpace text = c :: rest) : rest <:+ text :=
  (List.suffix_cons c rest).trans (h ▸ skipSpace_suffix text)

theorem isSpace_of_skipSpace (h : skipSpace text = c :: rest) : isSpace c = false := by
  have head := List.head?_dropWhile_not isSpace text
  rw [← skipSpace, h] at head
  simpa using head

end Leaves

/-- So many digits stand in the text in a row, more than a whole number may have. -/
def HoldsLongRun (text : Text) (digits : Nat) : Prop :=
  maxDigits < digits ∧ ∃ run, run.length = digits ∧ (∀ c ∈ run, CodePoint.isDigit c) ∧ run <:+: text

theorem HoldsLongRun.within {text middle : Text} {digits : Nat} (h : HoldsLongRun middle digits)
    (inner : middle <:+ text) : HoldsLongRun text digits := by
  obtain ⟨long, run, length, each, held⟩ := h
  exact ⟨long, run, length, each, held.trans inner.isInfix⟩

/-- A scan that goes forward, and gives up on a whole number only where too many digits stand. -/
structure GoesForward {α : Type} (scan : Text → Scan α) : Prop where
  leaves : ∀ {text value rest}, scan text = .ok (value, rest) → Leaves text rest
  run : ∀ {text digits}, scan text = .error (.tooManyDigits digits) → HoldsLongRun text digits

theorem leaves_readChars {opening read text chars rest : Text} {high : Option CodePoint}
    (h : readChars opening high read text = .ok (chars, rest)) : Leaves text rest := by
  fun_induction readChars
  case case2 =>
    cases h
    exact leaves_cons List.suffix_rfl
  case case5 ih | case6 ih | case7 ih | case8 ih | case9 ih =>
    exact (ih h).within ⟨[_, _, _, _, _, _], rfl⟩
  case case11 ih => exact (ih h).within ⟨[_, _], rfl⟩
  case case14 ih => exact (ih h).within (List.suffix_cons _ _)
  all_goals cases h

theorem malformed_of_readChars {opening read text : Text} {high : Option CodePoint} {fault : ReadFault}
    (h : readChars opening high read text = .error fault) : ∃ kind remaining, fault = .malformed kind remaining := by
  fun_induction readChars
  case case2 => cases h
  case case5 ih | case6 ih | case7 ih | case8 ih | case9 ih | case11 ih | case14 ih => exact ih h
  all_goals
    cases h
    exact ⟨_, _, rfl⟩

theorem takeDigits_eq {text digits rest : Text} (h : takeDigits text = (digits, rest)) : ∀ c ∈ digits, c.isDigit := by
  rw [takeDigits, List.span_eq_takeWhile_dropWhile] at h
  cases h
  intro c member
  exact List.mem_takeWhile_imp member

theorem takeDigits_append_self {text digits rest : Text} (h : takeDigits text = (digits, rest)) :
    digits ++ rest = text := by
  rw [takeDigits, List.span_eq_takeWhile_dropWhile] at h
  cases h
  exact List.takeWhile_append_dropWhile

theorem takeDigits_suffix {text digits rest : Text} (h : takeDigits text = (digits, rest)) : rest <:+ text :=
  takeDigits_append_self h ▸ List.suffix_append digits rest

theorem takeFraction_suffix (text : Text) : (takeFraction text).2 <:+ text := by
  fun_cases takeFraction with
  | case2 rest some => exact (takeDigits_suffix rfl).trans (List.suffix_cons _ rest)
  | case1 | case3 | case4 => exact List.suffix_rfl

def takePowerSign (text : Text) : Bool × Text :=
  match text with
  | s :: rest => if s = '-' then (true, rest) else if s = '+' then (false, rest) else (false, text)
  | [] => (false, [])

def takePower (text : Text) : Bool × Text × Text := ((takePowerSign text).1, takeDigits (takePowerSign text).2)

theorem takeExponent_cons (c : CodePoint) (rest : Text) :
    takeExponent (c :: rest) =
      if (c = 'e' ∨ c = 'E') ∧ (takePower rest).2.1 ≠ [] then
        (some ((takePower rest).1, (takePower rest).2.1), (takePower rest).2.2)
      else (none, c :: rest) := by
  generalize whole : c :: rest = text
  fun_cases takeExponent text with
  | case1 _ _ e negative body signed _ taken =>
    cases whole
    have power : takePowerSign rest = (negative, body) := signed
    simp [takePower, power, taken]
  | case2 _ _ e negative body signed digits after some taken =>
    cases whole
    have power : takePowerSign rest = (negative, body) := signed
    have letter : c = 'e' ∨ c = 'E' := by simpa using e
    have nonempty : digits ≠ [] := some
    simp [takePower, power, taken, letter, nonempty]
  | case3 _ _ e =>
    cases whole
    have letter : ¬(c = 'e' ∨ c = 'E') := by simpa using e
    simp [letter]
  | case4 => cases whole

theorem takePower_suffix (text : Text) : (takePower text).2.2 <:+ text := by
  refine (takeDigits_suffix rfl).trans ?_
  unfold takePowerSign
  split
  · rename_i s rest
    split
    · exact List.suffix_cons s rest
    · split
      · exact List.suffix_cons s rest
      · exact List.suffix_rfl
  · exact List.suffix_rfl

theorem takeExponent_suffix (text : Text) : (takeExponent text).2 <:+ text := by
  cases text with
  | nil => exact List.suffix_rfl
  | cons c rest =>
    rw [takeExponent_cons]
    split
    · exact (takePower_suffix rest).trans (List.suffix_cons c rest)
    · exact List.suffix_rfl

def takeSign (text : Text) : Bool × Text :=
  match text with
  | c :: rest => if c = '-' then (true, rest) else (false, text)
  | [] => (false, [])

def takeWhole (text : Text) : Option (Text × Text) :=
  match text with
  | c :: rest =>
    if c = '0' then some ([c], rest)
    else match takeDigits text with
      | ([], _) => none
      | found => some found
  | [] => none

def takePlaces (negative : Bool) (whole text : Text) : Numeral × Text :=
  let (fraction, after) := takeFraction text
  let (exponent, rest) := takeExponent after
  (⟨negative, whole, fraction, exponent⟩, rest)

theorem takeNumeral_eq (text : Text) :
    takeNumeral text =
      (takeWhole (takeSign text).2).map fun found => takePlaces (takeSign text).1 found.1 found.2 := rfl

theorem takeSign_suffix (text : Text) : (takeSign text).2 <:+ text := by
  unfold takeSign
  split
  · rename_i c rest
    split
    · exact List.suffix_cons c rest
    · exact List.suffix_rfl
  · exact List.suffix_rfl

theorem append_of_takeWhole {text whole rest : Text} (h : takeWhole text = some (whole, rest)) :
    whole ++ rest = text := by
  unfold takeWhole at h
  split at h
  · split at h
    · cases h
      rfl
    · split at h
      · cases h
      · exact takeDigits_append_self (Option.some.inj h)
  · cases h

theorem whole_of_takeWhole {text whole rest : Text} (h : takeWhole text = some (whole, rest)) :
    whole ≠ [] ∧ ∀ c ∈ whole, c.isDigit := by
  unfold takeWhole at h
  split at h
  · split at h
    · rename_i zero
      cases h
      exact ⟨List.cons_ne_nil _ _, by simp [zero]; decide⟩
    · split at h
      · cases h
      · rename_i some
        have taken := Option.some.inj h
        refine ⟨?_, takeDigits_eq taken⟩
        rintro rfl
        exact some _ taken
  · cases h

/-- The whole part of a numeral has digits, and nothing else. -/
theorem whole_of_takeNumeral {text rest : Text} {numeral : Numeral} (h : takeNumeral text = some (numeral, rest)) :
    numeral.whole ≠ [] ∧ ∀ c ∈ numeral.whole, c.isDigit := by
  rw [takeNumeral_eq] at h
  obtain ⟨found, taken, same⟩ := Option.map_eq_some_iff.1 h
  cases same
  exact whole_of_takeWhole taken

theorem takeNumeral_suffix {text rest : Text} {numeral : Numeral} (h : takeNumeral text = some (numeral, rest)) :
    ∃ after, rest <:+ after ∧ numeral.whole ++ after <:+ text := by
  rw [takeNumeral_eq] at h
  obtain ⟨⟨whole, after⟩, found, same⟩ := Option.map_eq_some_iff.1 h
  cases same
  refine ⟨after, (takeExponent_suffix _).trans (takeFraction_suffix after), ?_⟩
  exact append_of_takeWhole found ▸ takeSign_suffix text

theorem append_of_dropStart? {start text rest : Text} (h : Text.dropStart? start text = some rest) :
    start ++ rest = text := by
  fun_induction Text.dropStart? with
  | case1 text =>
    cases h
    rfl
  | case3 c start text ih => rw [List.cons_append, ih h]
  | case2 | case4 => cases h

theorem ne_nil_of_named : ∀ entry ∈ named, entry.1 ≠ [] := by decide

theorem readScalar_cases {text rest : Text} {value : Json} (h : readScalar text = .ok (value, rest)) :
    (∃ name, (name, value) ∈ named ∧ name ++ rest = text) ∨
      ∃ numeral, takeNumeral text = some (numeral, rest) ∧ numeral.value = .ok value := by
  unfold readScalar at h
  split at h
  · rename_i found hn
    cases h
    obtain ⟨entry, member, taken⟩ := List.exists_of_findSome?_eq_some hn
    obtain ⟨after, dropped, same⟩ := Option.map_eq_some_iff.1 taken
    cases same
    exact .inl ⟨entry.1, member, append_of_dropStart? dropped⟩
  · split at h
    · rename_i numeral after taken
      obtain ⟨found, own, same⟩ := ok_of_map h
      cases same
      exact .inr ⟨numeral, taken, own⟩
    · cases h

theorem goesForward_readScalar : GoesForward readScalar where
  leaves {text value rest} h := by
    rcases readScalar_cases h with ⟨name, member, rfl⟩ | ⟨numeral, taken, -⟩
    · exact leaves_append (ne_nil_of_named _ member)
    · obtain ⟨middle, inner, outer⟩ := takeNumeral_suffix taken
      exact ((leaves_append (whole_of_takeNumeral taken).1).before inner).within outer
  run {text digits} h := by
    unfold readScalar at h
    split at h
    · cases h
    · split at h
      · rename_i numeral after taken
        have fault := fault_of_map h
        unfold Numeral.value at fault
        split at fault
        · split at fault
          · rename_i long
            cases fault
            obtain ⟨middle, -, outer⟩ := takeNumeral_suffix taken
            exact ⟨long, numeral.whole, rfl, (whole_of_takeNumeral taken).2,
              (List.prefix_append numeral.whole middle).isInfix.trans outer.isInfix⟩
          · cases fault
        · cases fault
      · cases h

/-- A key is a string with a colon after it. -/
theorem readKey_eq_ok_iff {text key rest : Text} :
    readKey text = .ok (key, rest) ↔ ∃ inside after gap, text = CodePoint.ofChar '"' :: inside ∧
      readChars text none [] inside = .ok (key, after) ∧ skipSpace after = CodePoint.ofChar ':' :: gap ∧
        rest = skipSpace gap := by
  constructor
  · intro h
    unfold readKey at h
    split at h
    · cases h
    · split at h
      · rename_i c inside quote
        subst quote
        split at h
        · cases h
        · rename_i after read
          split at h
          · rename_i d gap skipped
            split at h
            · rename_i colon
              subst colon
              cases h
              exact ⟨inside, after, gap, rfl, read, skipped, rfl⟩
            · cases h
          · cases h
      · cases h
  · rintro ⟨inside, after, gap, rfl, read, skipped, rfl⟩
    simp [readKey, read, skipped]

theorem leaves_readKey {text key rest : Text} (h : readKey text = .ok (key, rest)) : Leaves text rest := by
  obtain ⟨inside, after, gap, rfl, read, skipped, rfl⟩ := readKey_eq_ok_iff.1 h
  have short := (leaves_readChars read).before ((skipSpace_suffix gap).trans (suffix_of_skipSpace skipped))
  exact short.within (List.suffix_cons _ inside)

theorem malformed_of_readKey {text : Text} {fault : ReadFault} (h : readKey text = .error fault) :
    ∃ kind remaining, fault = .malformed kind remaining := by
  unfold readKey at h
  split at h
  · cases h
    exact ⟨_, _, rfl⟩
  · split at h
    · split at h
      · rename_i read
        cases h
        exact malformed_of_readChars read
      · split at h
        · split at h <;> cases h
          exact ⟨_, _, rfl⟩
        · cases h
          exact ⟨_, _, rfl⟩
    · cases h
      exact ⟨_, _, rfl⟩

section Members

variable {value : Text → Scan Json} {fuel : Nat} {text rest : Text} {digits : Nat}

theorem leaves_readItems (forward : GoesForward value) {before items : List Json}
    (h : readItems value fuel before text = .ok (items, rest)) : Leaves text rest := by
  fun_induction readItems with
  | case3 fuel before text item after found ends skipped =>
    cases h
    exact (forward.leaves found).before (suffix_of_skipSpace skipped)
  | case4 fuel before text item after found inside skipped other ih =>
    exact (ih h).within (((skipSpace_suffix inside).trans (suffix_of_skipSpace skipped)).trans (forward.leaves found).1)
  | case1 | case2 | case5 | case6 => cases h

theorem run_readItems (forward : GoesForward value) {before : List Json}
    (h : readItems value fuel before text = .error (.tooManyDigits digits)) : HoldsLongRun text digits := by
  fun_induction readItems with
  | case2 fuel before text fault found =>
    cases h
    exact forward.run found
  | case4 fuel before text item after found inside skipped other ih =>
    exact (ih h).within (((skipSpace_suffix inside).trans (suffix_of_skipSpace skipped)).trans (forward.leaves found).1)
  | case1 | case3 | case5 | case6 => cases h

theorem leaves_readFields (forward : GoesForward value) {before fields : Fields}
    (h : readFields value fuel before text = .ok (fields, rest)) : Leaves text rest := by
  fun_induction readFields with
  | case4 fuel before text key colon named member after found read ends skipped =>
    simp only [Except.ok.injEq, Prod.mk.injEq] at h
    rw [← h.2]
    exact (leaves_readKey named).before ((suffix_of_skipSpace skipped).trans (forward.leaves found).1)
  | case5 fuel before text key colon named member after found read inside skipped other ih =>
    have further := (skipSpace_suffix inside).trans (suffix_of_skipSpace skipped)
    exact (ih h).within ((further.trans (forward.leaves found).1).trans (leaves_readKey named).1)
  | case1 | case2 | case3 | case6 | case7 => cases h

theorem run_readFields (forward : GoesForward value) {before : Fields}
    (h : readFields value fuel before text = .error (.tooManyDigits digits)) : HoldsLongRun text digits := by
  fun_induction readFields with
  | case2 fuel before text fault found =>
    cases h
    obtain ⟨kind, remaining, same⟩ := malformed_of_readKey found
    cases same
  | case3 fuel before text key colon named fault found =>
    cases h
    exact (forward.run found).within (leaves_readKey named).1
  | case5 fuel before text key colon named member after found read inside skipped other ih =>
    have further := (skipSpace_suffix inside).trans (suffix_of_skipSpace skipped)
    exact (ih h).within ((further.trans (forward.leaves found).1).trans (leaves_readKey named).1)
  | case1 | case4 | case6 | case7 => cases h

end Members

inductive NodeRead (inner : Option (Text → Scan Json)) : Text → Json → Text → Prop
  | str {inside chars rest} (read : readChars (CodePoint.ofChar '"' :: inside) none [] inside = .ok (chars, rest)) :
    NodeRead inner (CodePoint.ofChar '"' :: inside) (.str chars) rest
  | noItems {value inside rest} (allowed : inner = some value)
    (skipped : skipSpace inside = CodePoint.ofChar ']' :: rest) :
    NodeRead inner (CodePoint.ofChar '[' :: inside) (.arr []) rest
  | items {value inside d after items rest} (allowed : inner = some value) (skipped : skipSpace inside = d :: after)
    (some : d ≠ CodePoint.ofChar ']') (read : readItems value inside.length [] (d :: after) = .ok (items, rest)) :
    NodeRead inner (CodePoint.ofChar '[' :: inside) (.arr items) rest
  | noFields {value inside rest} (allowed : inner = some value)
    (skipped : skipSpace inside = CodePoint.ofChar '\x7d' :: rest) :
    NodeRead inner (CodePoint.ofChar '\x7b' :: inside) (.obj []) rest
  | fields {value inside d after fields rest} (allowed : inner = some value) (skipped : skipSpace inside = d :: after)
    (some : d ≠ CodePoint.ofChar '\x7d') (read : readFields value inside.length [] (d :: after) = .ok (fields, rest)) :
    NodeRead inner (CodePoint.ofChar '\x7b' :: inside) (.obj fields) rest
  | scalar {c inside value rest} (noString : c ≠ CodePoint.ofChar '"') (noArray : c ≠ CodePoint.ofChar '[')
    (noObject : c ≠ CodePoint.ofChar '\x7b') (read : readScalar (c :: inside) = .ok (value, rest)) :
    NodeRead inner (c :: inside) value rest

theorem readNode_eq_ok_iff {inner : Option (Text → Scan Json)} {text rest : Text} {found : Json} :
    readNode inner text = .ok (found, rest) ↔ NodeRead inner text found rest := by
  constructor
  · intro h
    unfold readNode at h
    split at h
    · cases h
    · split at h
      · rename_i quote
        subst quote
        obtain ⟨chars, read, same⟩ := ok_of_map h
        cases same
        exact .str read
      · split at h
        · rename_i bracket
          subst bracket
          split at h
          · cases h
          · split at h
            · rename_i skipped
              split at h
              · rename_i close
                cases h
                exact .noItems rfl (close ▸ skipped)
              · rename_i some
                obtain ⟨items, read, same⟩ := ok_of_map h
                cases same
                exact .items rfl skipped some read
            · cases h
        · split at h
          · rename_i bracket
            subst bracket
            split at h
            · cases h
            · split at h
              · rename_i skipped
                split at h
                · rename_i close
                  cases h
                  exact .noFields rfl (close ▸ skipped)
                · rename_i some
                  obtain ⟨fields, read, same⟩ := ok_of_map h
                  cases same
                  exact .fields rfl skipped some read
              · cases h
          · rename_i noString noArray noObject
            exact .scalar noString noArray noObject h
  · have bracket : CodePoint.ofChar '[' ≠ '"' := by decide
    have brace : CodePoint.ofChar '\x7b' ≠ '"' ∧ CodePoint.ofChar '\x7b' ≠ '[' := by decide
    intro h
    cases h with
    | str read => simp [readNode, read, Except.map]
    | noItems allowed skipped => simp [readNode, bracket, allowed, skipped]
    | items allowed skipped some read => simp [readNode, bracket, allowed, skipped, some, read, Except.map]
    | noFields allowed skipped => simp [readNode, brace, allowed, skipped]
    | fields allowed skipped some read => simp [readNode, brace, allowed, skipped, some, read, Except.map]
    | scalar noString noArray noObject read => simp [readNode, noString, noArray, noObject, read]

/-- What holds of reading a node, once it holds of reading what is inside, holds of reading at every level. -/
theorem readValue_induction {p : (Text → Scan Json) → Prop}
    (step : ∀ inner : Option (Text → Scan Json), (∀ value ∈ inner, p value) → p (readNode inner)) (levels : Nat) :
    p (readValue levels) := by
  induction levels with
  | zero =>
    apply step
    intro value none
    cases none
  | succ levels ih =>
    apply step
    intro value some
    cases some
    exact ih

theorem goesForward_readNode {inner : Option (Text → Scan Json)} (forward : ∀ value ∈ inner, GoesForward value) :
    GoesForward (readNode inner) where
  leaves {text found rest} h := by
    cases readNode_eq_ok_iff.1 h with
    | str read => exact (leaves_readChars read).within (List.suffix_cons _ _)
    | noItems allowed skipped | noFields allowed skipped => exact leaves_cons (suffix_of_skipSpace skipped)
    | @items value inside d after items rest allowed skipped some read =>
      have inner : d :: after <:+ inside := skipped ▸ skipSpace_suffix inside
      exact (leaves_readItems (forward _ allowed) read).within (inner.trans (List.suffix_cons _ inside))
    | @fields value inside d after fields rest allowed skipped some read =>
      have inner : d :: after <:+ inside := skipped ▸ skipSpace_suffix inside
      exact (leaves_readFields (forward _ allowed) read).within (inner.trans (List.suffix_cons _ inside))
    | scalar noString noArray noObject read => exact goesForward_readScalar.leaves read
  run {text digits} h := by
    unfold readNode at h
    split at h
    · cases h
    · rename_i c inside
      have one : inside <:+ c :: inside := List.suffix_cons c inside
      split at h
      · obtain ⟨kind, remaining, same⟩ := malformed_of_readChars (fault_of_map h)
        cases same
      · split at h
        · split at h
          · cases h
          · split at h
            · rename_i d rest' skipped
              split at h
              · cases h
              · have held := run_readItems (forward _ rfl) (fault_of_map h)
                exact held.within ((skipped ▸ skipSpace_suffix inside : d :: rest' <:+ inside).trans one)
            · cases h
        · split at h
          · split at h
            · cases h
            · split at h
              · rename_i d rest' skipped
                split at h
                · cases h
                · have held := run_readFields (forward _ rfl) (fault_of_map h)
                  exact held.within ((skipped ▸ skipSpace_suffix inside : d :: rest' <:+ inside).trans one)
              · cases h
          · exact goesForward_readScalar.run h

theorem goesForward_readValue (levels : Nat) : GoesForward (readValue levels) :=
  readValue_induction (p := GoesForward) (fun _ => goesForward_readNode) levels

/-- A text is only given up for the length of a number if so many digits stand in it. -/
theorem run_read {levels : Nat} {text : Text} {digits : Nat} (h : read levels text = .error (.tooManyDigits digits)) :
    HoldsLongRun text digits := by
  unfold read at h
  split at h
  · cases h
  · split at h
    · rename_i found
      cases h
      exact ((goesForward_readValue levels).run found).within (skipSpace_suffix text)
    · split at h <;> cases h

end SchemaUnnest.Json
