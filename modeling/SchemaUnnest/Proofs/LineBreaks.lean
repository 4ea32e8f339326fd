import SchemaUnnest.Document.Loaded
import SchemaUnnest.Proofs.Scans

namespace SchemaUnnest.Json

def isBreak (c : CodePoint) : Bool := c = '\r' || c = '\n'

/-- Two texts that are the same but for the line breaks, and have these at the same places. -/
inductive Rebroken : Text → Text → Prop
  | ends : Rebroken [] []
  | char {c rest rest'} (plain : isBreak c = false) (h : Rebroken rest rest') : Rebroken (c :: rest) (c :: rest')
  | breaks {c d gap gap' rest rest'} (first : isBreak c) (first' : isBreak d) (each : ∀ e ∈ gap, isBreak e)
    (each' : ∀ e ∈ gap', isBreak e) (h : Rebroken rest rest') :
    Rebroken (c :: (gap ++ rest)) (d :: (gap' ++ rest'))

theorem ne_of_isBreak {c d : CodePoint} (h : isBreak c) (plain : isBreak d = false) : c ≠ d := by
  rintro rfl
  rw [h] at plain
  cases plain

theorem eq_of_isBreak {c : CodePoint} (h : isBreak c) : c = '\r' ∨ c = '\n' := by
  simpa [isBreak] using h

theorem isSpace_of_isBreak {c : CodePoint} (h : isBreak c) : isSpace c := by
  rcases eq_of_isBreak h with rfl | rfl <;> decide

theorem isDigit_of_isBreak {c : CodePoint} (h : isBreak c) : c.isDigit = false := by
  rcases eq_of_isBreak h with rfl | rfl <;> decide

/-- What holds of a code point, and of neither line break, tells it from them. -/
theorem plain_of {p : CodePoint → Prop} {c : CodePoint} (h : p c) (carriage : ¬p '\r') (feed : ¬p '\n') :
    isBreak c = false := by
  by_contra broken
  rw [Bool.not_eq_false] at broken
  rcases eq_of_isBreak broken with rfl | rfl
  · exact carriage h
  · exact feed h

namespace Rebroken

variable {text other rest : Text} {c : CodePoint}

theorem symm (h : Rebroken text other) : Rebroken other text := by
  induction h with
  | ends => exact .ends
  | char plain h ih => exact .char plain ih
  | breaks first first' each each' h ih => exact .breaks first' first each' each ih

theorem one {d : CodePoint} {rest' : Text} (first : isBreak c) (first' : isBreak d) (h : Rebroken rest rest') :
    Rebroken (c :: rest) (d :: rest') :=
  breaks first first' (List.forall_mem_nil _) (List.forall_mem_nil _) h

theorem unified (text : Text) : Rebroken text (Document.unifyNewlines text) := by
  have carriage : isBreak '\r' := by decide
  have feed : isBreak '\n' := by decide
  fun_induction Document.unifyNewlines with
  | case1 => exact .ends
  | case2 rest ih =>
    have each : ∀ e ∈ [CodePoint.ofChar '\n'], isBreak e := by simpa using feed
    exact breaks carriage feed each (List.forall_mem_nil _) ih
  | case3 d rest other ih => exact one carriage feed ih
  | case4 => exact one carriage feed .ends
  | case5 c rest other ih =>
    by_cases line : c = '\n'
    · subst line
      exact one feed feed ih
    · have plain : isBreak c = false := by simp [isBreak, other, line]
      exact .char plain ih

theorem cons (h : Rebroken (c :: rest) other) (plain : isBreak c = false) :
    ∃ rest', other = c :: rest' ∧ Rebroken rest rest' := by
  cases h with
  | char plain h => exact ⟨_, rfl, h⟩
  | breaks first => exact absurd rfl (ne_of_isBreak first plain)

theorem nil (h : Rebroken [] other) : other = [] := by
  cases h
  rfl

theorem skipSpace (h : Rebroken text other) : Rebroken (skipSpace text) (skipSpace other) := by
  induction h with
  | ends => exact .ends
  | @char c rest rest' plain h ih =>
    cases space : isSpace c with
    | true => simpa [Json.skipSpace, space] using ih
    | false => simpa [Json.skipSpace, space] using .char plain h
  | @breaks c d gap gap' rest rest' first first' each each' h ih =>
    have passed : ∀ e ∈ gap, isSpace e := fun e member => isSpace_of_isBreak (each e member)
    have passed' : ∀ e ∈ gap', isSpace e := fun e member => isSpace_of_isBreak (each' e member)
    simpa [Json.skipSpace, isSpace_of_isBreak first, isSpace_of_isBreak first', List.dropWhile_append_of_pos passed,
      List.dropWhile_append_of_pos passed'] using ih

theorem skipSpace_cons {text other after : Text} {c : CodePoint} (h : Rebroken text other)
    (skipped : Json.skipSpace text = c :: after) :
    ∃ after', Json.skipSpace other = c :: after' ∧ Rebroken after after' := by
  apply (skipped ▸ h.skipSpace : Rebroken (c :: after) _).cons
  exact plain_of (p := fun c => isSpace c = false) (isSpace_of_skipSpace skipped) (by decide) (by decide)

theorem head?_eq_some_iff (h : Rebroken text other) (plain : isBreak c = false) :
    text.head? = some c ↔ other.head? = some c := by
  cases h with
  | ends => rfl
  | char => rfl
  | breaks first first' => simp [ne_of_isBreak first plain, ne_of_isBreak first' plain]

end Rebroken

def Alike {α : Type} (found found' : α × Text) : Prop := found.1 = found'.1 ∧ Rebroken found.2 found'.2

def TakesAlike {α : Type} (take : Text → Option (α × Text)) : Prop :=
  ∀ ⦃text other value rest⦄, Rebroken text other → take text = some (value, rest) →
    ∃ rest', take other = some (value, rest') ∧ Rebroken rest rest'

theorem TakesAlike.none {α : Type} {take : Text → Option (α × Text)} (h : TakesAlike take) {text other : Text}
    (same : Rebroken text other) (absent : take text = none) : take other = none := by
  cases found : take other with
  | none => rfl
  | some entry =>
    obtain ⟨rest', found', -⟩ := h same.symm found
    rw [absent] at found'
    cases found'

section Numbers

variable {text other : Text}

theorem alike_takeDigits (h : Rebroken text other) : Alike (takeDigits text) (takeDigits other) := by
  simp only [takeDigits, List.span_eq_takeWhile_dropWhile]
  induction h with
  | ends => exact ⟨rfl, .ends⟩
  | @char c rest rest' plain h ih =>
    cases digit : c.isDigit with
    | true => simpa [Alike, digit] using ih
    | false => simpa [Alike, digit] using .char plain h
  | breaks first first' each each' h =>
    simpa [Alike, isDigit_of_isBreak first, isDigit_of_isBreak first'] using .breaks first first' each each' h

theorem alike_takeFraction (h : Rebroken text other) : Alike (takeFraction text) (takeFraction other) := by
  cases h with
  | ends => exact ⟨rfl, .ends⟩
  | @char c rest rest' plain h =>
    obtain ⟨same, after⟩ := alike_takeDigits h
    have kept := Rebroken.char plain h
    revert same after
    simp only [takeFraction]
    generalize takeDigits rest = found, takeDigits rest' = found'
    obtain ⟨digits, left⟩ := found
    obtain ⟨digits', left'⟩ := found'
    rintro rfl after
    split
    · cases digits with
      | nil => exact ⟨rfl, kept⟩
      | cons => exact ⟨rfl, after⟩
    · exact ⟨rfl, kept⟩
  | breaks first first' each each' h =>
    have point : isBreak '.' = false := by decide
    simpa [Alike, takeFraction, ne_of_isBreak first point, ne_of_isBreak first' point] using
      .breaks first first' each each' h

theorem alike_takePowerSign (h : Rebroken text other) : Alike (takePowerSign text) (takePowerSign other) := by
  cases h with
  | ends => exact ⟨rfl, .ends⟩
  | @char s rest rest' plain h =>
    simp only [takePowerSign]
    split
    · exact ⟨rfl, h⟩
    · split
      · exact ⟨rfl, h⟩
      · exact ⟨rfl, .char plain h⟩
  | breaks first first' each each' h =>
    have minus : isBreak '-' = false := by decide
    have plus : isBreak '+' = false := by decide
    simpa [Alike, takePowerSign, ne_of_isBreak first minus, ne_of_isBreak first' minus, ne_of_isBreak first plus,
      ne_of_isBreak first' plus] using .breaks first first' each each' h

theorem alike_takeExponent (h : Rebroken text other) : Alike (takeExponent text) (takeExponent other) := by
  cases h with
  | ends => exact ⟨rfl, .ends⟩
  | @char c rest rest' plain h =>
    obtain ⟨sign, body⟩ := alike_takePowerSign h
    obtain ⟨digits, after⟩ := alike_takeDigits body
    rw [takeExponent_cons, takeExponent_cons]
    by_cases found : (c = 'e' ∨ c = 'E') ∧ (takePower rest).2.1 ≠ []
    · have found' : (c = 'e' ∨ c = 'E') ∧ (takePower rest').2.1 ≠ [] := ⟨found.1, digits ▸ found.2⟩
      rw [if_pos found, if_pos found']
      exact ⟨by simp only [takePower, sign, digits], after⟩
    · have found' : ¬((c = 'e' ∨ c = 'E') ∧ (takePower rest').2.1 ≠ []) := fun other =>
        found ⟨other.1, digits ▸ other.2⟩
      rw [if_neg found, if_neg found']
      exact ⟨rfl, .char plain h⟩
  | breaks first first' each each' h =>
    have lower : isBreak 'e' = false := by decide
    have upper : isBreak 'E' = false := by decide
    simpa [Alike, takeExponent, ne_of_isBreak first lower, ne_of_isBreak first' lower, ne_of_isBreak first upper,
      ne_of_isBreak first' upper] using .breaks first first' each each' h

theorem alike_takeSign (h : Rebroken text other) : Alike (takeSign text) (takeSign other) := by
  cases h with
  | ends => exact ⟨rfl, .ends⟩
  | @char c rest rest' plain h =>
    simp only [takeSign]
    split
    · exact ⟨rfl, h⟩
    · exact ⟨rfl, .char plain h⟩
  | breaks first first' each each' h =>
    have sign : isBreak '-' = false := by decide
    simpa [Alike, takeSign, ne_of_isBreak first sign, ne_of_isBreak first' sign] using .breaks first first' each each' h

theorem takesAlike_takeWhole : TakesAlike takeWhole := by
  intro text other whole rest h taken
  cases h with
  | ends => cases taken
  | @char c inside inside' plain h =>
    obtain ⟨same, after⟩ := alike_takeDigits (.char plain h)
    simp only [takeWhole] at taken ⊢
    split at taken
    · rename_i zero
      cases taken
      exact ⟨inside', if_pos zero, h⟩
    · rename_i other
      rw [if_neg other]
      revert same after taken
      generalize takeDigits (c :: inside) = found, takeDigits (c :: inside') = found'
      obtain ⟨digits, left⟩ := found
      obtain ⟨digits', left'⟩ := found'
      rintro rfl after taken
      cases digits with
      | nil => cases taken
      | cons =>
        cases taken
        exact ⟨left', rfl, after⟩
  | breaks first first' each each' h =>
    have zero : isBreak '0' = false := by decide
    simp [takeWhole, takeDigits, List.span_eq_takeWhile_dropWhile, ne_of_isBreak first zero,
      isDigit_of_isBreak first] at taken

theorem alike_takePlaces (negative : Bool) (whole : Text) (h : Rebroken text other) :
    Alike (takePlaces negative whole text) (takePlaces negative whole other) := by
  have fraction := alike_takeFraction h
  have exponent := alike_takeExponent fraction.2
  exact ⟨by simp [takePlaces, fraction.1, exponent.1], exponent.2⟩

theorem takesAlike_takeNumeral : TakesAlike takeNumeral := by
  intro text other numeral rest h taken
  rw [takeNumeral_eq] at taken ⊢
  obtain ⟨⟨whole, after⟩, found, same⟩ := Option.map_eq_some_iff.1 taken
  obtain ⟨signed, inner⟩ := alike_takeSign h
  obtain ⟨after', found', left⟩ := takesAlike_takeWhole inner found
  obtain ⟨numeral', last⟩ := alike_takePlaces (takeSign text).1 whole left
  rw [same] at numeral' last
  refine ⟨_, ?_, last⟩
  rw [found', ← signed]
  exact congrArg some (Prod.ext numeral'.symm rfl)

end Numbers

theorem Rebroken.dropStart? {start text other rest : Text} (plain : ∀ c ∈ start, isBreak c = false)
    (h : Rebroken text other) (dropped : Text.dropStart? start text = some rest) :
    ∃ rest', Text.dropStart? start other = some rest' ∧ Rebroken rest rest' := by
  fun_induction Text.dropStart? start text generalizing other with
  | case1 text =>
    cases dropped
    exact ⟨other, by cases other <;> rfl, h⟩
  | case3 c start text ih =>
    obtain ⟨own, later⟩ := List.forall_mem_cons.1 plain
    obtain ⟨rest', rfl, h'⟩ := h.cons own
    simpa [Text.dropStart?] using ih later h' dropped
  | case2 | case4 => cases dropped

def takeName (entry : Text × Json) (text : Text) : Option (Json × Text) :=
  (Text.dropStart? entry.1 text).map (entry.2, ·)

theorem takesAlike_takeName {entry : Text × Json} (plain : ∀ c ∈ entry.1, isBreak c = false) :
    TakesAlike (takeName entry) := by
  intro text other value rest h taken
  obtain ⟨left, dropped, same⟩ := Option.map_eq_some_iff.1 taken
  cases same
  obtain ⟨rest', dropped', after⟩ := h.dropStart? plain dropped
  exact ⟨rest', by rw [takeName, dropped']; rfl, after⟩

def takeNamed (names : List (Text × Json)) (text : Text) : Option (Json × Text) := names.findSome? (takeName · text)

theorem takesAlike_takeNamed {names : List (Text × Json)} (plain : ∀ entry ∈ names, ∀ c ∈ entry.1, isBreak c = false) :
    TakesAlike (takeNamed names) := by
  intro text other value rest h taken
  induction names with
  | nil => cases taken
  | cons entry names ih =>
    obtain ⟨own, later⟩ := List.forall_mem_cons.1 plain
    have alike := takesAlike_takeName own
    simp only [takeNamed, List.findSome?_cons] at taken ⊢
    cases found : takeName entry text with
    | none =>
      rw [found] at taken
      rw [alike.none h found]
      exact ih later taken
    | some left =>
      rw [found] at taken
      cases taken
      obtain ⟨rest', found', after⟩ := alike h found
      exact ⟨rest', by rw [found'], after⟩

def IgnoresBreaks {α : Type} (scan : Text → Scan α) : Prop :=
  ∀ ⦃text other value rest⦄, Rebroken text other → scan text = .ok (value, rest) →
    ∃ rest', scan other = .ok (value, rest') ∧ Rebroken rest rest'

theorem readScalar_eq (text : Text) :
    readScalar text = match takeNamed named text with
      | some found => .ok found
      | none => match takeNumeral text with
        | some (numeral, rest) => numeral.value.map (·, rest)
        | none => malformed .expectingValue text := rfl

theorem ignoresBreaks_readScalar : IgnoresBreaks readScalar := by
  have plain : ∀ entry ∈ named, ∀ c ∈ entry.1, isBreak c = false := by decide
  intro text other value rest h read
  rw [readScalar_eq] at read ⊢
  cases found : takeNamed named text with
  | some entry =>
    rw [found] at read
    cases read
    obtain ⟨rest', found', after⟩ := takesAlike_takeNamed plain h found
    exact ⟨rest', by rw [found'], after⟩
  | none =>
    rw [found] at read
    rw [(takesAlike_takeNamed plain).none h found]
    cases taken : takeNumeral text with
    | none =>
      rw [taken] at read
      cases read
    | some numeral =>
      rw [taken] at read
      obtain ⟨value, own, same⟩ := ok_of_map read
      cases same
      obtain ⟨rest', taken', after⟩ := takesAlike_takeNumeral h taken
      refine ⟨rest', ?_, after⟩
      simp only [taken', own]
      rfl

theorem plain_of_hexDigit? {c : CodePoint} {n : Nat} (h : c.hexDigit? = some n) : isBreak c = false :=
  plain_of (p := fun c => c.hexDigit?.isSome) (Option.isSome_iff_exists.2 ⟨n, h⟩) (by decide) (by decide)

theorem plain_of_hex4? {a b c d : CodePoint} {n : Nat} (h : hex4? a b c d = some n) :
    isBreak a = false ∧ isBreak b = false ∧ isBreak c = false ∧ isBreak d = false := by
  unfold hex4? at h
  split at h
  · rename_i ha hb hc hd
    exact ⟨plain_of_hexDigit? ha, plain_of_hexDigit? hb, plain_of_hexDigit? hc, plain_of_hexDigit? hd⟩
  · cases h

theorem plain_of_unescape? {c meant : CodePoint} (h : unescape? c = some meant) : isBreak c = false :=
  plain_of (p := fun c => (unescape? c).isSome) (Option.isSome_iff_exists.2 ⟨meant, h⟩) (by decide) (by decide)

theorem plain_of_visible {c : CodePoint} (h : ¬c.value < 0x20) : isBreak c = false :=
  plain_of (p := fun c => ¬c.value < 0x20) h (by decide) (by decide)

/-- An escape of four digits stands in both texts, and something follows it in both. -/
theorem Rebroken.unit {h1 h2 h3 h4 next : CodePoint} {rest other : Text} {n : Nat}
    (h : Rebroken (CodePoint.ofChar '\\' :: CodePoint.ofChar 'u' :: h1 :: h2 :: h3 :: h4 :: next :: rest) other)
    (hex : hex4? h1 h2 h3 h4 = some n) :
    ∃ next' rest', other = CodePoint.ofChar '\\' :: CodePoint.ofChar 'u' :: h1 :: h2 :: h3 :: h4 :: next' :: rest' ∧
      Rebroken (next :: rest) (next' :: rest') := by
  obtain ⟨plain1, plain2, plain3, plain4⟩ := plain_of_hex4? hex
  obtain ⟨_, rfl, one⟩ := h.cons (by decide)
  obtain ⟨_, rfl, two⟩ := one.cons (by decide)
  obtain ⟨_, rfl, three⟩ := two.cons plain1
  obtain ⟨_, rfl, four⟩ := three.cons plain2
  obtain ⟨_, rfl, five⟩ := four.cons plain3
  obtain ⟨_, rfl, after⟩ := five.cons plain4
  -- What follows may be a break, so it need not be the same, but something is there.
  cases after with
  | char plain after => exact ⟨_, _, rfl, .char plain after⟩
  | breaks first first' each each' after => exact ⟨_, _, rfl, .breaks first first' each each' after⟩

/-- A string holds no line break, so it is the same in both texts. -/
theorem readChars_rebroken {opening opening' read text other chars rest : Text} {high : Option CodePoint}
    (h : Rebroken text other) (scanned : readChars opening high read text = .ok (chars, rest)) :
    ∃ rest', readChars opening' high read other = .ok (chars, rest') ∧ Rebroken rest rest' := by
  -- Along the scan of the first text: what it takes is never a break, so the second text has the same there.
  fun_induction readChars opening high read text generalizing other
  case case2 =>
    cases scanned
    obtain ⟨rest', rfl, after⟩ := h.cons (by decide)
    rw [readChars.eq_def]
    exact ⟨rest', rfl, after⟩
  case case5 hex unit first low slash ih =>
    obtain ⟨next', rest', rfl, inner⟩ := h.unit hex
    rw [readChars.eq_def]
    simp only [if_neg slash, if_true, hex]
    rw [if_pos low]
    exact ih inner scanned
  case case6 hex unit first low high slash ih =>
    obtain ⟨next', rest', rfl, inner⟩ := h.unit hex
    rw [readChars.eq_def]
    simp only [if_neg slash, if_true, hex]
    rw [if_neg low, if_pos high]
    exact ih inner scanned
  case case7 hex unit first low high slash ih =>
    obtain ⟨next', rest', rfl, inner⟩ := h.unit hex
    rw [readChars.eq_def]
    simp only [if_neg slash, if_true, hex]
    rw [if_neg low, if_neg high]
    exact ih inner scanned
  case case8 hex unit high slash ih =>
    obtain ⟨next', rest', rfl, inner⟩ := h.unit hex
    rw [readChars.eq_def]
    simp only [if_neg slash, if_true, hex]
    rw [if_pos high]
    exact ih inner scanned
  case case9 hex unit high slash ih =>
    obtain ⟨next', rest', rfl, inner⟩ := h.unit hex
    rw [readChars.eq_def]
    simp only [if_neg slash, if_true, hex]
    rw [if_neg high]
    exact ih inner scanned
  case case11 noUnit meant escaped slash ih =>
    obtain ⟨_, rfl, after⟩ := h.cons (by decide)
    obtain ⟨rest', rfl, inner⟩ := after.cons (plain_of_unescape? escaped)
    rw [readChars.eq_def]
    simp only [if_neg slash, if_true, if_neg noUnit, escaped]
    exact ih inner scanned
  case case14 quote slash visible ih =>
    obtain ⟨rest', rfl, inner⟩ := h.cons (plain_of_visible visible)
    rw [readChars.eq_def]
    simp only [if_neg quote, if_neg slash, if_neg visible]
    exact ih inner scanned
  all_goals cases scanned

theorem ignoresBreaks_readKey : IgnoresBreaks readKey := by
  intro text other key rest h read
  obtain ⟨inside, after, gap, rfl, scanned, skipped, rfl⟩ := readKey_eq_ok_iff.1 read
  obtain ⟨inside', rfl, inner⟩ := h.cons (by decide)
  obtain ⟨after', read', left⟩ := readChars_rebroken inner scanned
  obtain ⟨gap', skipped', behind⟩ := left.skipSpace_cons skipped
  exact ⟨skipSpace gap', readKey_eq_ok_iff.2 ⟨inside', after', gap', rfl, read', skipped', rfl⟩, behind.skipSpace⟩

section Members

variable {value : Text → Scan Json} {fuel fuel' : Nat} {text other rest : Text}

/-- The bound on the number of elements does no harm in a text that is no longer than it. -/
theorem readItems_rebroken (forward : GoesForward value) (alike : IgnoresBreaks value) {before items : List Json}
    (h : Rebroken text other) (enough : other.length ≤ fuel')
    (read : readItems value fuel before text = .ok (items, rest)) :
    ∃ rest', readItems value fuel' before other = .ok (items, rest') ∧ Rebroken rest rest' := by
  fun_induction readItems value fuel before text generalizing other fuel' with
  | case3 fuel before text item after found ends skipped =>
    cases read
    obtain ⟨after', found', left⟩ := alike h found
    obtain ⟨ends', skipped', behind⟩ := left.skipSpace_cons skipped
    have shorter := (forward.leaves found').2
    obtain ⟨fuel', rfl⟩ := Nat.exists_eq_succ_of_ne_zero (by omega : fuel' ≠ 0)
    exact ⟨ends', by simp [readItems, found', skipped'], behind⟩
  | case4 fuel before text item after found inside skipped more ih =>
    obtain ⟨after', found', left⟩ := alike h found
    obtain ⟨inside', skipped', behind⟩ := left.skipSpace_cons skipped
    have shorter := (forward.leaves found').2
    -- The item took up text, so what is left fits the smaller bound.
    have next := ((skipSpace_suffix inside').trans (suffix_of_skipSpace skipped')).length_le
    obtain ⟨fuel', rfl⟩ := Nat.exists_eq_succ_of_ne_zero (by omega : fuel' ≠ 0)
    simpa [readItems, found', skipped', more] using ih behind.skipSpace (by omega) read
  | case1 | case2 | case5 | case6 => cases read

theorem readFields_rebroken (forward : GoesForward value) (alike : IgnoresBreaks value) {before fields : Fields}
    (h : Rebroken text other) (enough : other.length ≤ fuel')
    (read : readFields value fuel before text = .ok (fields, rest)) :
    ∃ rest', readFields value fuel' before other = .ok (fields, rest') ∧ Rebroken rest rest' := by
  fun_induction readFields value fuel before text generalizing other fuel'
  case case4 key colon named member after found set ends skipped =>
    obtain ⟨colon', named', behind⟩ := ignoresBreaks_readKey h named
    obtain ⟨after', found', left⟩ := alike behind found
    obtain ⟨ends', skipped', last⟩ := left.skipSpace_cons skipped
    have shorter := (leaves_readKey named').2
    obtain ⟨fuel', rfl⟩ := Nat.exists_eq_succ_of_ne_zero (by omega : fuel' ≠ 0)
    obtain ⟨same, rfl⟩ : set = fields ∧ ends = rest := by simpa using read
    subst same
    exact ⟨ends', by simp [readFields, named', found', skipped', set], last⟩
  case case5 key colon named member after found set inside skipped more ih =>
    obtain ⟨colon', named', behind⟩ := ignoresBreaks_readKey h named
    obtain ⟨after', found', left⟩ := alike behind found
    obtain ⟨inside', skipped', last⟩ := left.skipSpace_cons skipped
    have shorter := (leaves_readKey named').2
    have least := (forward.leaves found').2
    have next := ((skipSpace_suffix inside').trans (suffix_of_skipSpace skipped')).length_le
    obtain ⟨fuel', rfl⟩ := Nat.exists_eq_succ_of_ne_zero (by omega : fuel' ≠ 0)
    simpa [readFields, named', found', skipped', more] using ih last.skipSpace (by omega) read
  all_goals cases read

end Members

theorem ignoresBreaks_readNode {inner : Option (Text → Scan Json)} (forward : ∀ value ∈ inner, GoesForward value)
    (alike : ∀ value ∈ inner, IgnoresBreaks value) : IgnoresBreaks (readNode inner) := by
  intro text other found rest h read
  simp only [readNode_eq_ok_iff] at read ⊢
  cases read with
  | str read =>
    obtain ⟨inside', rfl, h'⟩ := h.cons (by decide)
    obtain ⟨rest', read', after⟩ := readChars_rebroken h' read
    exact ⟨rest', .str read', after⟩
  | noItems allowed skipped =>
    obtain ⟨inside', rfl, h'⟩ := h.cons (by decide)
    obtain ⟨rest', skipped', after⟩ := h'.skipSpace_cons skipped
    exact ⟨rest', .noItems allowed skipped', after⟩
  | items allowed skipped some read =>
    obtain ⟨inside', rfl, h'⟩ := h.cons (by decide)
    obtain ⟨after', skipped', left⟩ := h'.skipSpace_cons skipped
    have enough := (skipSpace_suffix inside').length_le
    have begins := skipped ▸ skipped' ▸ h'.skipSpace
    obtain ⟨rest', read', after⟩ := readItems_rebroken (forward _ allowed) (alike _ allowed) begins
      (skipped' ▸ enough) read
    exact ⟨rest', .items allowed skipped' some read', after⟩
  | noFields allowed skipped =>
    obtain ⟨inside', rfl, h'⟩ := h.cons (by decide)
    obtain ⟨rest', skipped', after⟩ := h'.skipSpace_cons skipped
    exact ⟨rest', .noFields allowed skipped', after⟩
  | fields allowed skipped some read =>
    obtain ⟨inside', rfl, h'⟩ := h.cons (by decide)
    obtain ⟨after', skipped', left⟩ := h'.skipSpace_cons skipped
    have enough := (skipSpace_suffix inside').length_le
    have begins := skipped ▸ skipped' ▸ h'.skipSpace
    obtain ⟨rest', read', after⟩ := readFields_rebroken (forward _ allowed) (alike _ allowed) begins
      (skipped' ▸ enough) read
    exact ⟨rest', .fields allowed skipped' some read', after⟩
  | scalar noString noArray noObject read =>
    obtain ⟨rest', read', after⟩ := ignoresBreaks_readScalar h read
    cases h with
    | char plain h => exact ⟨rest', .scalar noString noArray noObject read', after⟩
    | breaks first first' each each' h =>
      have string : isBreak '"' = false := by decide
      have array : isBreak '[' = false := by decide
      have object : isBreak '\x7b' = false := by decide
      exact ⟨rest', .scalar (ne_of_isBreak first' string) (ne_of_isBreak first' array)
        (ne_of_isBreak first' object) read',
        after⟩

theorem ignoresBreaks_readValue (levels : Nat) : IgnoresBreaks (readValue levels) := by
  have both : GoesForward (readValue levels) ∧ IgnoresBreaks (readValue levels) := by
    apply readValue_induction (p := fun value => GoesForward value ∧ IgnoresBreaks value)
    intro inner sound
    have forward : ∀ value ∈ inner, GoesForward value := fun value some => (sound value some).1
    have alike : ∀ value ∈ inner, IgnoresBreaks value := fun value some => (sound value some).2
    exact ⟨goesForward_readNode forward, ignoresBreaks_readNode forward alike⟩
  exact both.2

theorem read_of_rebroken {levels : Nat} {text other : Text} {value : Json} (h : Rebroken text other)
    (found : read levels text = .ok value) : read levels other = .ok value := by
  have marked := h.head?_eq_some_iff (c := CodePoint.ofNat 0xFEFF) (by decide)
  unfold read at found ⊢
  split at found
  · cases found
  · rename_i unmarked
    rw [if_neg (marked.not.1 unmarked)]
    split at found
    · cases found
    · rename_i read
      obtain ⟨rest', read', after⟩ := ignoresBreaks_readValue levels h.skipSpace read
      split at found
      · rename_i ends
        have ends' := (ends ▸ after.skipSpace).nil
        cases found
        simp only [read', ends']
      · cases found

theorem read_unifyNewlines {levels : Nat} {text : Text} {value : Json} :
    read levels (Document.unifyNewlines text) = .ok value ↔ read levels text = .ok value := by
  have same := Rebroken.unified text
  exact ⟨read_of_rebroken same.symm, read_of_rebroken same⟩

end SchemaUnnest.Json
