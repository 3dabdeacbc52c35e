/-!
# Dictionaries in order of insertion

A dictionary holds each key once and remembers the order in which the keys first came.  Giving a
key another value keeps its place, and erasing a key closes the gap.  The view is the list
`entries`; the lemmas say what each operation does to the keys and to look-up.
-/

namespace Resettle

/-- Entries in order of insertion, no two of them under one key. -/
structure Dictionary (κ : Type) (α : Type) where
  /-- The entries, first inserted first. -/
  entries : List (κ × α)
  /-- Each key occurs once. -/
  nodup : (entries.map Prod.fst).Nodup
deriving DecidableEq, Repr

namespace Dictionary

variable {κ α β : Type}

def empty : Dictionary κ α where
  entries := []
  nodup := List.nodup_nil

instance : Inhabited (Dictionary κ α) :=
  ⟨empty⟩

@[ext] theorem ext {d e : Dictionary κ α} (h : d.entries = e.entries) : d = e := by
  cases d; cases e; cases h; rfl

/-- The keys, first inserted first. -/
def keys (d : Dictionary κ α) : List κ :=
  d.entries.map Prod.fst

def values (d : Dictionary κ α) : List α :=
  d.entries.map Prod.snd

def size (d : Dictionary κ α) : Nat :=
  d.entries.length

def isEmpty (d : Dictionary κ α) : Bool :=
  d.entries.isEmpty

section

variable [DecidableEq κ]

/-- The value under the first entry for `key`. -/
def find? (key : κ) : List (κ × α) → Option α
  | [] => none
  | (k, v) :: rest => if k = key then some v else find? key rest

/-- Entries with `value` under `key`, in the key's place if it has one, else at the end. -/
def put (key : κ) (value : α) : List (κ × α) → List (κ × α)
  | [] => [(key, value)]
  | (k, v) :: rest => if k = key then (k, value) :: rest else (k, v) :: put key value rest

theorem keys_put (key : κ) (value : α) (es : List (κ × α)) :
    (put key value es).map Prod.fst =
      if key ∈ es.map Prod.fst then es.map Prod.fst else es.map Prod.fst ++ [key] := by
  induction es with
  | nil => simp [put]
  | cons e es ih =>
      obtain ⟨k, v⟩ := e
      by_cases h : k = key
      · simp [put, h]
      · have h' : ¬ key = k := fun e => h e.symm
        simp only [put, h, if_false, List.map_cons, ih, List.mem_cons, h', false_or]
        split <;> rfl

theorem nodup_put {key : κ} {value : α} {es : List (κ × α)} (h : (es.map Prod.fst).Nodup) :
    ((put key value es).map Prod.fst).Nodup := by
  rw [keys_put]
  split
  · exact h
  · next hk =>
      rw [List.nodup_append]
      refine ⟨h, by simp, ?_⟩
      intro a ha b hb
      simp only [List.mem_singleton] at hb
      subst hb
      exact fun e => hk (e ▸ ha)

theorem find?_put_self (key : κ) (value : α) (es : List (κ × α)) :
    find? key (put key value es) = some value := by
  induction es with
  | nil => simp [put, find?]
  | cons e es ih =>
      obtain ⟨k, v⟩ := e
      by_cases h : k = key <;> simp [put, find?, h, ih]

theorem find?_put_of_ne {key other : κ} (h : other ≠ key) (value : α) (es : List (κ × α)) :
    find? other (put key value es) = find? other es := by
  induction es with
  | nil => simp [put, find?, Ne.symm h]
  | cons e es ih =>
      obtain ⟨k, v⟩ := e
      by_cases hk : k = key
      · subst hk
        simp [put, find?, Ne.symm h]
      · simp [put, find?, hk, ih]

theorem mem_of_find?_eq_some {key : κ} {value : α} {es : List (κ × α)}
    (h : find? key es = some value) : (key, value) ∈ es := by
  induction es with
  | nil => simp [find?] at h
  | cons e es ih =>
      obtain ⟨k, v⟩ := e
      by_cases hk : k = key
      · simp only [find?, hk, if_true, Option.some.injEq] at h
        subst hk
        subst h
        exact List.mem_cons_self
      · simp only [find?, hk, if_false] at h
        exact List.mem_cons_of_mem _ (ih h)

theorem find?_eq_some_of_mem {key : κ} {value : α} {es : List (κ × α)}
    (nodup : (es.map Prod.fst).Nodup) (h : (key, value) ∈ es) : find? key es = some value := by
  induction es with
  | nil => simp at h
  | cons e es ih =>
      obtain ⟨k, v⟩ := e
      rw [List.map_cons, List.nodup_cons] at nodup
      rcases List.mem_cons.1 h with heq | hmem
      · cases heq
        simp [find?]
      · have hne : ¬ k = key := fun hk =>
          nodup.1 (List.mem_map.2 ⟨(key, value), hmem, hk.symm⟩)
        simp [find?, hne, ih nodup.2 hmem]

theorem mem_of_mem_put {key : κ} {value : α} {es : List (κ × α)} {e : κ × α}
    (h : e ∈ put key value es) : e = (key, value) ∨ e ∈ es := by
  induction es with
  | nil => simp_all [put]
  | cons x es ih =>
      obtain ⟨k, v⟩ := x
      by_cases hk : k = key
      · simp only [put, hk, if_true, List.mem_cons] at h
        rcases h with h | h
        · exact .inl h
        · exact .inr (List.mem_cons_of_mem _ h)
      · simp only [put, hk, if_false, List.mem_cons] at h
        rcases h with h | h
        · exact .inr (h ▸ List.mem_cons_self)
        · rcases ih h with h | h
          · exact .inl h
          · exact .inr (List.mem_cons_of_mem _ h)

theorem mem_put_of_ne {key : κ} {value : α} {es : List (κ × α)} {e : κ × α} (h : e ∈ es)
    (hne : e.1 ≠ key) : e ∈ put key value es := by
  induction es with
  | nil => simp at h
  | cons x es ih =>
      obtain ⟨k, v⟩ := x
      rcases List.mem_cons.1 h with heq | hmem
      · subst heq
        have hk : ¬ k = key := hne
        simp [put, hk]
      · by_cases hk : k = key
        · simp [put, hk, hmem]
        · simp [put, hk, ih hmem]

def get? (d : Dictionary κ α) (key : κ) : Option α :=
  find? key d.entries

def contains (d : Dictionary κ α) (key : κ) : Bool :=
  (d.get? key).isSome

/-- The dictionary with `value` under `key`; a key that is already there keeps its place. -/
def insert (d : Dictionary κ α) (key : κ) (value : α) : Dictionary κ α where
  entries := put key value d.entries
  nodup := nodup_put d.nodup

/-- The dictionary with `value` under `key` unless the key is already there. -/
def insertIfNew (d : Dictionary κ α) (key : κ) (value : α) : Dictionary κ α :=
  if d.contains key then d else d.insert key value

def erase (d : Dictionary κ α) (key : κ) : Dictionary κ α where
  entries := d.entries.filter fun e => e.1 ≠ key
  nodup := d.nodup.sublist (List.filter_sublist.map _)

def insertMany (d : Dictionary κ α) (es : List (κ × α)) : Dictionary κ α :=
  es.foldl (fun d e => d.insert e.1 e.2) d

def ofList (es : List (κ × α)) : Dictionary κ α :=
  empty.insertMany es

@[simp] theorem get?_insert_self (d : Dictionary κ α) (key : κ) (value : α) :
    (d.insert key value).get? key = some value :=
  find?_put_self key value d.entries

theorem get?_insert_of_ne (d : Dictionary κ α) {key other : κ} (h : other ≠ key) (value : α) :
    (d.insert key value).get? other = d.get? other :=
  find?_put_of_ne h value d.entries

theorem keys_insert (d : Dictionary κ α) (key : κ) (value : α) :
    (d.insert key value).keys = if key ∈ d.keys then d.keys else d.keys ++ [key] :=
  keys_put key value d.entries

theorem get?_eq_some_iff (d : Dictionary κ α) {key : κ} {value : α} :
    d.get? key = some value ↔ (key, value) ∈ d.entries :=
  ⟨mem_of_find?_eq_some, find?_eq_some_of_mem d.nodup⟩

@[simp] theorem get?_empty (key : κ) : (empty : Dictionary κ α).get? key = none :=
  rfl

end

end Dictionary

end Resettle
