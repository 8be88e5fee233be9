/-
**Tables.**

A dictionary holds one value under each of its keys, in the order in which the keys came.  A value
that is put under a key that is there takes the place of the old one.  A table is a dictionary whose
keys are names.

Main definitions:

* `Dictionary`, `Table` — the types;
* `Dictionary.get?`, `Dictionary.put`, `Dictionary.erase`, `Dictionary.has` — the operations;
* `Table.sorted` — the entries of a table by name.
-/

set_option autoImplicit false

namespace TriggerEngine

/-- Values under keys, in order of insertion. -/
structure Dictionary (κ α : Type) where
  /-- The keys with their values. -/
  entries : List (κ × α) := []

/-- Values under names. -/
abbrev Table (α : Type) := Dictionary String α

namespace Dictionary

variable {κ α : Type} [DecidableEq κ]

/-- The dictionary without entries. -/
def empty {κ α : Type} : Dictionary κ α := ⟨[]⟩

/-- The value under a key. -/
def get? (t : Dictionary κ α) (key : κ) : Option α :=
  t.entries.lookup key

/-- Whether a key is there. -/
def has (t : Dictionary κ α) (key : κ) : Bool :=
  (t.get? key).isSome

/-- Puts a value under a key of a row of entries. -/
def putIn (key : κ) (a : α) : List (κ × α) → List (κ × α)
  | [] => [(key, a)]
  | (k, b) :: rest => if k == key then (k, a) :: rest else (k, b) :: putIn key a rest

/-- Puts a value under a key; a key that is there keeps its place. -/
def put (t : Dictionary κ α) (key : κ) (a : α) : Dictionary κ α :=
  ⟨putIn key a t.entries⟩

/-- Removes a key. -/
def erase (t : Dictionary κ α) (key : κ) : Dictionary κ α :=
  ⟨t.entries.filter fun entry => entry.1 != key⟩

/-- The keys in order of insertion. -/
def names {κ α : Type} (t : Dictionary κ α) : List κ :=
  t.entries.map Prod.fst

/-- How many keys there are. -/
def size {κ α : Type} (t : Dictionary κ α) : Nat :=
  t.entries.length

/-- A dictionary from entries, later ones winning. -/
def ofList (entries : List (κ × α)) : Dictionary κ α :=
  entries.foldl (fun t entry => t.put entry.1 entry.2) empty

/-! ### Small facts -/

@[simp] theorem get?_empty (key : κ) : (empty : Dictionary κ α).get? key = none := rfl

theorem lookup_putIn (key : κ) (a : α) (entries : List (κ × α)) :
    (putIn key a entries).lookup key = some a := by
  induction entries with
  | nil => simp [putIn]
  | cons entry rest ih =>
    obtain ⟨n, b⟩ := entry
    by_cases h : n = key
    · simp [putIn, h]
    · have hne : (key == n) = false := beq_false_of_ne (Ne.symm h)
      simp [putIn, h, List.lookup_cons, hne, ih]

theorem lookup_putIn_of_ne {key other : κ} (a : α) (entries : List (κ × α))
    (hne : other ≠ key) : (putIn key a entries).lookup other = entries.lookup other := by
  have hname : (other == key) = false := beq_false_of_ne hne
  induction entries with
  | nil => simp [putIn, List.lookup_cons, hname]
  | cons entry rest ih =>
    obtain ⟨n, b⟩ := entry
    by_cases h : n = key
    · simp [putIn, h, List.lookup_cons, hname]
    · simp [putIn, h, List.lookup_cons, ih]

@[simp] theorem get?_put (t : Dictionary κ α) (key : κ) (a : α) :
    (t.put key a).get? key = some a :=
  lookup_putIn key a t.entries

theorem get?_put_of_ne (t : Dictionary κ α) {key other : κ} (a : α) (hne : other ≠ key) :
    (t.put key a).get? other = t.get? other :=
  lookup_putIn_of_ne a t.entries hne

@[simp] theorem get?_erase (t : Dictionary κ α) (key : κ) : (t.erase key).get? key = none := by
  rw [get?, erase, List.lookup_eq_none_iff]
  intro entry hentry
  simpa [Ne, @eq_comm _ key] using (List.mem_filter.1 hentry).2

theorem get?_erase_of_ne (t : Dictionary κ α) {key other : κ} (hne : other ≠ key) :
    (t.erase key).get? other = t.get? other := by
  obtain ⟨entries⟩ := t
  simp only [get?, erase]
  induction entries with
  | nil => rfl
  | cons entry rest ih =>
    obtain ⟨k, b⟩ := entry
    by_cases h : k = key
    · have hother : (other == key) = false := beq_false_of_ne hne
      simp [h, ih, List.lookup_cons, hother]
    · simp [h, ih, List.lookup_cons]

end Dictionary

/-! ### Tables -/

namespace Table

variable {α : Type}

/-- Names in the order of their characters. -/
def sortNames (names : List String) : List String :=
  names.mergeSort fun a b => decide (a < b) || a == b

/-- The entries of a table in the order of their names. -/
def sorted (t : Table α) : List (String × α) :=
  t.entries.mergeSort fun a b => decide (a.1 < b.1) || a.1 == b.1

end Table

end TriggerEngine
