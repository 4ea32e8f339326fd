namespace SchemaUnnest.Entries

variable {κ α : Type} [DecidableEq κ]

def get? (key : κ) : List (κ × α) → Option α
  | [] => none
  | (k, value) :: rest => if k = key then some value else get? key rest

def has (key : κ) (entries : List (κ × α)) : Bool := (get? key entries).isSome

/-- Stores a value: in the place of the key's old value, or last. -/
def set (key : κ) (value : α) : List (κ × α) → List (κ × α)
  | [] => [(key, value)]
  | (k, old) :: rest => if k = key then (key, value) :: rest else (k, old) :: set key value rest

def erase (key : κ) : List (κ × α) → List (κ × α)
  | [] => []
  | (k, value) :: rest => if k = key then rest else (k, value) :: erase key rest

def keys (entries : List (κ × α)) : List κ := entries.map Prod.fst

def setAll (new entries : List (κ × α)) : List (κ × α) :=
  new.foldl (fun entries (key, value) => set key value entries) entries

def last? (key : κ) : List (κ × α) → Option α
  | [] => none
  | (k, value) :: rest => (last? key rest).or (if k = key then some value else none)

def total (measure : α → Nat) : List (κ × α) → Nat
  | [] => 0
  | (_, value) :: rest => measure value + total measure rest

@[simp] theorem get?_nil (key : κ) : get? key ([] : List (κ × α)) = none := rfl

theorem get?_set (key other : κ) (value : α) (entries : List (κ × α)) :
    get? other (set key value entries) = if key = other then some value else get? other entries := by
  induction entries with
  | nil => simp [set, get?]
  | cons entry rest ih =>
    obtain ⟨k, old⟩ := entry
    by_cases h : k = key
    · subst h; by_cases ho : k = other <;> simp [set, get?, ho]
    · by_cases ho : k = other
      · subst ho; simp [set, get?, h, Ne.symm h]
      · simp [set, get?, h, ho, ih]

@[simp] theorem get?_set_self (key : κ) (value : α) (entries : List (κ × α)) :
    get? key (set key value entries) = some value := by simp [get?_set]

theorem get?_set_of_ne {key other : κ} (h : key ≠ other) (value : α) (entries : List (κ × α)) :
    get? other (set key value entries) = get? other entries := by simp [get?_set, h]

theorem keys_set (key : κ) (value : α) (entries : List (κ × α)) :
    keys (set key value entries) = if has key entries then keys entries else keys entries ++ [key] := by
  induction entries with
  | nil => simp [set, keys, has]
  | cons entry rest ih =>
    obtain ⟨k, old⟩ := entry
    by_cases h : k = key
    · simp [set, keys, has, get?, h]
    · have ih : (set key value rest).map Prod.fst =
        if (get? key rest).isSome then rest.map Prod.fst else rest.map Prod.fst ++ [key] := ih
      simp only [set, h, keys, has, get?, if_false, List.map_cons, ih]
      split <;> rfl

theorem has_iff_mem_keys (key : κ) (entries : List (κ × α)) : has key entries ↔ key ∈ keys entries := by
  induction entries with
  | nil => simp [has, keys]
  | cons entry rest ih =>
    obtain ⟨k, old⟩ := entry
    have ih : (get? key rest).isSome ↔ key ∈ rest.map Prod.fst := ih
    by_cases h : k = key
    · simp [has, keys, get?, h]
    · simp [has, keys, get?, h, ih, Ne.symm h]

theorem has_set (key other : κ) (value : α) (entries : List (κ × α)) :
    has other (set key value entries) = (decide (key = other) || has other entries) := by
  by_cases h : key = other <;> simp [has, get?_set, h]

theorem set_set (key : κ) (value old : α) (entries : List (κ × α)) :
    set key value (set key old entries) = set key value entries := by
  induction entries with
  | nil => simp [set]
  | cons entry rest ih =>
    obtain ⟨k, older⟩ := entry
    by_cases h : k = key <;> simp [set, h, ih]

theorem set_of_get? {key : κ} {value : α} {entries : List (κ × α)}
    (found : get? key entries = some value) : set key value entries = entries := by
  induction entries with
  | nil => simp at found
  | cons entry rest ih =>
    obtain ⟨k, old⟩ := entry
    by_cases h : k = key
    · simp [get?, h] at found
      simp [set, h, found]
    · simp [get?, h] at found
      simp [set, h, ih found]

/-- A key that is there keeps its place, so it does not matter when it is stored under. -/
theorem set_comm {key other : κ} (h : key ≠ other) {entries : List (κ × α)} (held : has key entries)
    (value new : α) :
    set key value (set other new entries) = set other new (set key value entries) := by
  induction entries with
  | nil => simp [has] at held
  | cons entry rest ih =>
    obtain ⟨k, old⟩ := entry
    by_cases hk : k = key
    · subst hk
      simp [set, h]
    · have held : has key rest := by simpa [has, get?, hk] using held
      by_cases ho : k = other <;> simp [set, hk, ho, ih held]
      subst ho
      simp [set, hk]

theorem set_of_absent {key : κ} {entries : List (κ × α)} (absent : has key entries = false) (value : α) :
    set key value entries = entries ++ [(key, value)] := by
  induction entries with
  | nil => rfl
  | cons entry rest ih =>
    obtain ⟨k, old⟩ := entry
    by_cases h : k = key
    · simp [has, get?, h] at absent
    · have later : has key rest = false := by simpa [has, get?, h] using absent
      simp [set, h, ih later]

/-- Where the value under a key stands, and that storing under the key changes no more than this. -/
theorem set_at {key : κ} {old : α} {entries : List (κ × α)} (found : get? key entries = some old) :
    ∃ before after, entries = before ++ (key, old) :: after ∧
      ∀ value, set key value entries = before ++ (key, value) :: after := by
  induction entries with
  | nil => cases found
  | cons entry rest ih =>
    obtain ⟨k, first⟩ := entry
    by_cases h : k = key
    · subst h
      simp only [get?, if_true, Option.some.injEq] at found
      exact ⟨[], rest, by simp [found], fun value => by simp [set]⟩
    · simp only [get?, h, if_false] at found
      obtain ⟨before, after, whole, stored⟩ := ih found
      exact ⟨(k, first) :: before, after, by simp [whole], fun value => by simp [set, h, stored]⟩

theorem set_append_cons {key : κ} {before : List (κ × α)} (fresh : key ∉ keys before) (old new : α)
    (after : List (κ × α)) :
    set key new (before ++ (key, old) :: after) = before ++ (key, new) :: after := by
  induction before with
  | nil => simp [set]
  | cons entry rest ih =>
    obtain ⟨k, held⟩ := entry
    have other : key ≠ k ∧ key ∉ keys rest := by simpa [keys] using fresh
    simp [set, Ne.symm other.1, ih other.2]

theorem mem_set {key other : κ} {value found : α} {entries : List (κ × α)}
    (member : (other, found) ∈ set key value entries) : found = value ∨ (other, found) ∈ entries := by
  induction entries with
  | nil =>
    cases List.mem_singleton.1 member
    exact Or.inl rfl
  | cons entry rest ih =>
    obtain ⟨k, old⟩ := entry
    by_cases h : k = key
    · rw [set, if_pos h] at member
      rcases List.mem_cons.1 member with same | later
      · cases same
        exact Or.inl rfl
      · exact Or.inr (List.mem_cons_of_mem _ later)
    · rw [set, if_neg h] at member
      rcases List.mem_cons.1 member with same | later
      · exact Or.inr (same ▸ List.mem_cons_self)
      · rcases ih later with here | there
        · exact Or.inl here
        · exact Or.inr (List.mem_cons_of_mem _ there)

theorem nodup_keys_set (key : κ) (value : α) {entries : List (κ × α)} (distinct : (keys entries).Nodup) :
    (keys (set key value entries)).Nodup := by
  rw [keys_set]
  split
  · exact distinct
  · rename_i absent
    rw [has_iff_mem_keys] at absent
    rw [List.nodup_append]
    refine ⟨distinct, by simp, ?_⟩
    rintro k member other single rfl
    exact absent (List.mem_singleton.1 single ▸ member)

theorem mem_of_get? {key : κ} {value : α} {entries : List (κ × α)} (found : get? key entries = some value) :
    (key, value) ∈ entries := by
  induction entries with
  | nil => simp at found
  | cons entry rest ih =>
    obtain ⟨k, old⟩ := entry
    by_cases h : k = key
    · simp [get?, h] at found
      simp [h, found]
    · simp [get?, h] at found
      exact List.mem_cons_of_mem _ (ih found)

theorem setAll_append (first second entries : List (κ × α)) :
    setAll (first ++ second) entries = setAll second (setAll first entries) := by
  simp [setAll, List.foldl_append]

theorem get?_setAll (key : κ) (new entries : List (κ × α)) :
    get? key (setAll new entries) = (last? key new).or (get? key entries) := by
  induction new generalizing entries with
  | nil => simp [setAll, last?]
  | cons entry rest ih =>
    obtain ⟨k, value⟩ := entry
    have later := ih (set k value entries)
    simp only [setAll, List.foldl_cons] at later ⊢
    rw [later, get?_set]
    by_cases h : k = key <;> cases hl : last? key rest <;> simp [last?, h, hl]

theorem has_congr {left right : List (κ × α)} (same : keys left = keys right) (key : κ) :
    has key left = has key right := by
  rw [Bool.eq_iff_iff, has_iff_mem_keys, has_iff_mem_keys, same]

theorem keys_setAll [BEq κ] [LawfulBEq κ] (new entries : List (κ × α)) :
    keys (setAll new entries) = keys entries ++ ((keys new).filter fun key => !has key entries).eraseDups := by
  induction new generalizing entries with
  | nil => simp [setAll, keys]
  | cons entry rest ih =>
    obtain ⟨key, value⟩ := entry
    have stored : keys (setAll ((key, value) :: rest) entries) = keys (setAll rest (set key value entries)) := rfl
    have named : keys ((key, value) :: rest) = key :: keys rest := rfl
    cases held : has key entries with
    | true =>
      have kept : keys (set key value entries) = keys entries := by rw [keys_set, if_pos held]
      have same : ∀ other, has other (set key value entries) = has other entries := has_congr kept
      rw [stored, ih, kept, named]
      simp [held, same]
    | false =>
      have longer : keys (set key value entries) = keys entries ++ [key] := by rw [keys_set, held]; rfl
      have others : ((keys rest).filter fun other => !has other (set key value entries)) =
          ((keys rest).filter fun other => !has other entries).filter fun other => !other == key := by
        rw [List.filter_filter]
        apply List.filter_congr
        intro other _
        by_cases h : key = other
        · simp [has_set, h]
        · simp [has_set, h, beq_eq_false_iff_ne.2 (Ne.symm h)]
      rw [stored, ih, longer, named, others]
      simp [held, List.eraseDups_cons]

theorem keys_setAll_congr [BEq κ] [LawfulBEq κ] (new : List (κ × α)) {left right : List (κ × α)}
    (same : keys left = keys right) :
    keys (setAll new left) = keys (setAll new right) := by
  simp only [keys_setAll, same, has_congr same]

theorem nodup_keys_setAll (new : List (κ × α)) {entries : List (κ × α)} (distinct : (keys entries).Nodup) :
    (keys (setAll new entries)).Nodup := by
  induction new generalizing entries with
  | nil => exact distinct
  | cons entry rest ih => exact ih (nodup_keys_set entry.1 entry.2 distinct)

/-- What is stored before other entries is as good as stored behind them, under another key than theirs. -/
theorem set_setAll {key : κ} {new : List (κ × α)} (other : key ∉ keys new) {entries : List (κ × α)}
    (held : has key entries) (value : α) :
    set key value (setAll new entries) = setAll new (set key value entries) := by
  induction new generalizing entries with
  | nil => rfl
  | cons entry rest ih =>
    obtain ⟨k, stored⟩ := entry
    have other : key ≠ k ∧ key ∉ keys rest := by simpa [keys] using other
    have still : has key (set k stored entries) := by simp [has_set, held]
    have later := ih other.2 still
    rw [set_comm other.1 held] at later
    exact later

/-- What is stored under one of the keys of later entries is lost. -/
theorem setAll_set {key : κ} {new : List (κ × α)} (mine : key ∈ keys new) {entries : List (κ × α)}
    (held : has key entries) (value : α) : setAll new (set key value entries) = setAll new entries := by
  induction new generalizing entries with
  | nil => simp [keys] at mine
  | cons entry rest ih =>
    obtain ⟨k, stored⟩ := entry
    by_cases h : k = key
    · subst h
      simp [setAll, set_set]
    · have mine : key ∈ keys rest := by simpa [keys, Ne.symm h] using mine
      have still : has key (set k stored entries) := by simp [has_set, held]
      have later := ih mine still
      rw [set_comm (Ne.symm h) held] at later
      exact later

theorem last?_eq_none_iff {key : κ} {entries : List (κ × α)} : last? key entries = none ↔ key ∉ keys entries := by
  induction entries with
  | nil => simp [last?, keys]
  | cons entry rest ih =>
    obtain ⟨k, value⟩ := entry
    have ih : last? key rest = none ↔ key ∉ rest.map Prod.fst := ih
    by_cases h : k = key
    · simp [last?, keys, h]
    · simp [last?, keys, h, ih, Ne.symm h]

theorem mem_of_last? {key : κ} {value : α} {entries : List (κ × α)} (found : last? key entries = some value) :
    (key, value) ∈ entries := by
  induction entries with
  | nil => simp [last?] at found
  | cons entry rest ih =>
    obtain ⟨k, old⟩ := entry
    cases hl : last? key rest with
    | some later =>
      simp [last?, hl] at found
      exact List.mem_cons_of_mem _ (ih (found ▸ hl))
    | none =>
      by_cases h : k = key
      · simp [last?, hl, h] at found
        simp [h, found]
      · simp [last?, hl, h] at found

theorem last?_of_mem {key : κ} {value : α} {entries : List (κ × α)} (distinct : (keys entries).Nodup)
    (member : (key, value) ∈ entries) : last? key entries = some value := by
  induction entries with
  | nil => simp at member
  | cons entry rest ih =>
    obtain ⟨k, old⟩ := entry
    obtain ⟨fresh, distinct⟩ : k ∉ keys rest ∧ (keys rest).Nodup := List.nodup_cons.1 distinct
    rcases List.mem_cons.1 member with same | member
    · cases same
      simp [last?, last?_eq_none_iff.2 fresh]
    · simp [last?, ih distinct member]

theorem total_set (measure : α → Nat) (key : κ) (value : α) (entries : List (κ × α)) :
    total measure (set key value entries) + ((get? key entries).map measure).getD 0 =
      total measure entries + measure value := by
  induction entries with
  | nil => simp [total, set]
  | cons entry rest ih =>
    obtain ⟨k, old⟩ := entry
    by_cases h : k = key
    · simp [total, set, get?, h]
      omega
    · simp [total, set, get?, h]
      omega

theorem total_setAll_le (measure : α → Nat) (new entries : List (κ × α)) :
    total measure (setAll new entries) ≤ total measure entries + total measure new := by
  induction new generalizing entries with
  | nil => simp [setAll]
  | cons entry rest ih =>
    obtain ⟨key, value⟩ := entry
    have step := total_set measure key value entries
    have later := ih (set key value entries)
    simp only [setAll, List.foldl_cons, total] at step later ⊢
    omega

omit [DecidableEq κ] in
theorem total_perm (measure : α → Nat) {left right : List (κ × α)} (same : left.Perm right) :
    total measure left = total measure right := by
  induction same with
  | nil => rfl
  | cons entry _ ih => simp [total, ih]
  | swap first second rest =>
    simp only [total]
    omega
  | trans _ _ first second => rw [first, second]

theorem get?_erase_of_ne {key other : κ} (h : key ≠ other) (entries : List (κ × α)) :
    get? other (erase key entries) = get? other entries := by
  induction entries with
  | nil => rfl
  | cons entry rest ih =>
    obtain ⟨k, old⟩ := entry
    by_cases hk : k = key
    · subst hk
      simp [erase, get?, h]
    · simp [erase, get?, hk, ih]

theorem total_erase (measure : α → Nat) {key : κ} {value : α} {entries : List (κ × α)}
    (found : get? key entries = some value) :
    total measure (erase key entries) + measure value = total measure entries := by
  induction entries with
  | nil => cases found
  | cons entry rest ih =>
    obtain ⟨k, old⟩ := entry
    by_cases h : k = key
    · simp only [get?, h, if_true, Option.some.injEq] at found
      simp [total, erase, h, found]
      omega
    · simp only [get?, h, if_false] at found
      have later := ih found
      simp [total, erase, h]
      omega

theorem get?_of_mem {key : κ} {value : α} {entries : List (κ × α)} (distinct : (keys entries).Nodup)
    (member : (key, value) ∈ entries) : get? key entries = some value := by
  induction entries with
  | nil => simp at member
  | cons entry rest ih =>
    obtain ⟨k, old⟩ := entry
    have distinct : k ∉ keys rest ∧ (keys rest).Nodup := List.nodup_cons.1 distinct
    rcases List.mem_cons.1 member with same | member
    · cases same; simp [get?]
    · have mem : key ∈ keys rest := List.mem_map.2 ⟨_, member, rfl⟩
      have other : k ≠ key := fun h => distinct.1 (h ▸ mem)
      simp [get?, other, ih distinct.2 member]

end SchemaUnnest.Entries
