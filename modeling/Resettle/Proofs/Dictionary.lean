import Resettle.Dictionary

/-!
# Dictionaries put together

What is found after an entry was inserted or erased, and what inserting several entries in turn
does.  Entries under new keys come behind those that are there, and the value of a key can as well
be exchanged in the list that a dictionary is made of.
-/

namespace Resettle

namespace Dictionary

variable {κ α : Type} [DecidableEq κ]

theorem put_of_notMem {key : κ} {es : List (κ × α)} (h : key ∉ es.map Prod.fst) (value : α) :
    put key value es = es ++ [(key, value)] := by
  induction es with
  | nil => rfl
  | cons e es ih =>
      obtain ⟨k, v⟩ := e
      rw [List.map_cons, List.mem_cons, not_or] at h
      have hne : k ≠ key := fun hk => h.1 hk.symm
      rw [put, if_neg hne, ih h.2]
      rfl

theorem mem_keys_iff (d : Dictionary κ α) (key : κ) : key ∈ d.keys ↔ (d.get? key).isSome = true := by
  rw [Option.isSome_iff_exists]
  constructor
  · intro h
    obtain ⟨e, he, rfl⟩ := List.mem_map.1 h
    exact ⟨e.2, d.get?_eq_some_iff.2 he⟩
  · rintro ⟨value, h⟩
    exact List.mem_map.2 ⟨(key, value), d.get?_eq_some_iff.1 h, rfl⟩

theorem get?_insert_eq_some_iff (d : Dictionary κ α) {key other : κ} {value value' : α} :
    (d.insert key value).get? other = some value' ↔
      (other = key ∧ value' = value) ∨ (other ≠ key ∧ d.get? other = some value') := by
  by_cases h : other = key
  · subst h
    simp [eq_comm]
  · simp [h, get?_insert_of_ne d h]

theorem get?_erase_eq_some_iff (d : Dictionary κ α) {key other : κ} {value : α} :
    (d.erase key).get? other = some value ↔ other ≠ key ∧ d.get? other = some value := by
  rw [get?_eq_some_iff, get?_eq_some_iff, erase, List.mem_filter, decide_eq_true_eq, and_comm]

theorem entries_insertMany {d : Dictionary κ α} {es : List (κ × α)}
    (h : ((d.entries ++ es).map Prod.fst).Nodup) :
    (d.insertMany es).entries = d.entries ++ es := by
  induction es generalizing d with
  | nil => exact (List.append_nil _).symm
  | cons e es ih =>
      have hnew : e.1 ∉ d.entries.map Prod.fst := by
        rw [List.map_append, List.map_cons, List.nodup_append] at h
        exact fun hmem => h.2.2 _ hmem _ List.mem_cons_self rfl
      have hput : (d.insert e.1 e.2).entries = d.entries ++ [e] := put_of_notMem hnew e.2
      have hrest : (((d.insert e.1 e.2).entries ++ es).map Prod.fst).Nodup := by
        rwa [hput, List.append_assoc]
      show ((d.insert e.1 e.2).insertMany es).entries = _
      rw [ih hrest, hput, List.append_assoc]
      rfl

theorem ofList_entries (d : Dictionary κ α) : ofList d.entries = d :=
  ext (entries_insertMany d.nodup)

theorem put_put (key : κ) (value value' : α) (es : List (κ × α)) :
    put key value' (put key value es) = put key value' es := by
  induction es with
  | nil => simp [put]
  | cons e es ih =>
      obtain ⟨k, v⟩ := e
      by_cases hk : k = key
      · simp [put, hk]
      · simp [put, hk, ih]

/-- A key that is there keeps its place, whatever comes in before its value is exchanged. -/
theorem put_comm {key other : κ} (hne : other ≠ key) {es : List (κ × α)}
    (h : key ∈ es.map Prod.fst) (value value' : α) :
    put key value (put other value' es) = put other value' (put key value es) := by
  induction es with
  | nil => cases h
  | cons e es ih =>
      obtain ⟨k, v⟩ := e
      by_cases hk : k = key
      · subst hk
        simp [put, Ne.symm hne]
      · have hmem : key ∈ es.map Prod.fst := (List.mem_cons.1 h).resolve_left (Ne.symm hk)
        by_cases hk' : k = other
        · simp [put, hk', hne]
        · simp [put, hk, hk', ih hmem]

theorem insertMany_append (d : Dictionary κ α) (es es' : List (κ × α)) :
    d.insertMany (es ++ es') = (d.insertMany es).insertMany es' :=
  List.foldl_append

theorem insertMany_insert {d : Dictionary κ α} {key : κ} {es : List (κ × α)}
    (hkey : key ∈ d.keys) (h : key ∉ es.map Prod.fst) (value : α) :
    (d.insertMany es).insert key value = (d.insert key value).insertMany es := by
  induction es generalizing d with
  | nil => rfl
  | cons e es ih =>
      rw [List.map_cons, List.mem_cons, not_or] at h
      have hmem : key ∈ (d.insert e.1 e.2).keys := by
        rw [keys_insert]
        split
        · exact hkey
        · exact List.mem_append_left _ hkey
      have hcomm : (d.insert e.1 e.2).insert key value = (d.insert key value).insert e.1 e.2 :=
        ext (put_comm (Ne.symm h.1) hkey value e.2)
      show ((d.insert e.1 e.2).insertMany es).insert key value = _
      rw [ih hmem h.2, hcomm]
      rfl

theorem ofList_exchange {key : κ} {back : List (κ × α)} (h : key ∉ back.map Prod.fst)
    (front : List (κ × α)) (value value' : α) :
    ofList (front ++ (key, value') :: back) =
      (ofList (front ++ (key, value) :: back)).insert key value' := by
  have hkey : key ∈ ((ofList front).insert key value).keys := by
    rw [keys_insert]
    split
    · assumption
    · exact List.mem_append_right _ List.mem_cons_self
  have hput : ((ofList front).insert key value).insert key value' =
      (ofList front).insert key value' := ext (put_put key value value' _)
  calc ofList (front ++ (key, value') :: back)
      = ((ofList front).insert key value').insertMany back := insertMany_append _ _ _
    _ = (((ofList front).insert key value).insertMany back).insert key value' := by
        rw [insertMany_insert hkey h, hput]
    _ = (ofList (front ++ (key, value) :: back)).insert key value' := by
        rw [ofList, ofList, insertMany_append]
        rfl

theorem mem_of_mem_insertMany {d : Dictionary κ α} {es : List (κ × α)} {e : κ × α}
    (h : e ∈ (d.insertMany es).entries) : e ∈ es ∨ e ∈ d.entries := by
  induction es generalizing d with
  | nil => exact .inr h
  | cons first es ih =>
      rcases ih h with hmem | hmem
      · exact .inl (List.mem_cons_of_mem _ hmem)
      · rcases mem_of_mem_put hmem with rfl | hmem
        · exact .inl List.mem_cons_self
        · exact .inr hmem

theorem mem_keys_insertMany {d : Dictionary κ α} {es : List (κ × α)} {key : κ} :
    key ∈ (d.insertMany es).keys ↔ key ∈ es.map Prod.fst ∨ key ∈ d.keys := by
  induction es generalizing d with
  | nil => simp [insertMany]
  | cons e es ih =>
      have hfirst : key ∈ (d.insert e.1 e.2).keys ↔ key = e.1 ∨ key ∈ d.keys := by
        rw [keys_insert]
        split
        · next hmem => exact ⟨.inr, fun h => h.elim (fun heq => heq ▸ hmem) id⟩
        · rw [List.mem_append, List.mem_singleton, or_comm]
      show key ∈ ((d.insert e.1 e.2).insertMany es).keys ↔ _
      rw [ih, hfirst, List.map_cons, List.mem_cons, or_left_comm, or_assoc]

theorem get?_insertMany_of_notMem {d : Dictionary κ α} {es : List (κ × α)} {key : κ}
    (h : key ∉ es.map Prod.fst) : (d.insertMany es).get? key = d.get? key := by
  induction es generalizing d with
  | nil => rfl
  | cons e es ih =>
      rw [List.map_cons, List.mem_cons, not_or] at h
      show ((d.insert e.1 e.2).insertMany es).get? key = _
      rw [ih h.2, get?_insert_of_ne d h.1]

/-- Where the entries of a key have one value, the order in which they came does not show. -/
theorem get?_insertMany_of_forall {d : Dictionary κ α} {es : List (κ × α)} {key : κ} {value : α}
    (h : ∀ e ∈ es, e.1 = key → e.2 = value)
    (hthere : key ∈ es.map Prod.fst ∨ d.get? key = some value) :
    (d.insertMany es).get? key = some value := by
  induction es generalizing d with
  | nil => exact hthere.resolve_left List.not_mem_nil
  | cons e es ih =>
      obtain ⟨hfirst, hrest⟩ := List.forall_mem_cons.1 h
      apply ih hrest
      by_cases hkey : e.1 = key
      · rw [← hkey, get?_insert_self, hfirst hkey]
        exact .inr rfl
      · rw [get?_insert_of_ne d (Ne.symm hkey)]
        exact hthere.imp_left fun hmem => (List.mem_cons.1 hmem).resolve_left (Ne.symm hkey)

/-- The value that a key has in some entries stays where no later entry has this key. -/
theorem get?_insertMany_of_last (d : Dictionary κ α) (front : List (κ × α)) {es behind : List (κ × α)}
    {key : κ} {value : α} (h : ∀ e ∈ es, e.1 = key → e.2 = value) (hthere : key ∈ es.map Prod.fst)
    (hbehind : key ∉ behind.map Prod.fst) :
    (d.insertMany (front ++ es ++ behind)).get? key = some value := by
  rw [insertMany_append, get?_insertMany_of_notMem hbehind, insertMany_append]
  exact get?_insertMany_of_forall h (.inl hthere)

/-! ## Values under keys of their own -/

variable {key : α → κ} {values : List α}

theorem mem_of_mem_ofList {e : κ × α}
    (h : e ∈ (ofList (values.map fun v => (key v, v))).entries) : e.2 ∈ values ∧ key e.2 = e.1 := by
  rcases mem_of_mem_insertMany h with hmem | hmem
  · obtain ⟨v, hv, rfl⟩ := List.mem_map.1 hmem
    exact ⟨hv, rfl⟩
  · exact absurd hmem List.not_mem_nil

theorem map_values_ofList (key : α → κ) (values : List α) :
    (ofList (values.map fun v => (key v, v))).values.map key =
      (ofList (values.map fun v => (key v, v))).keys := by
  rw [Dictionary.values, List.map_map]
  exact List.map_congr_left fun e he => (mem_of_mem_ofList he).2

theorem mem_values_ofList_iff (h : ∀ v ∈ values, ∀ w ∈ values, key v = key w → v = w) {v : α} :
    v ∈ (ofList (values.map fun v => (key v, v))).values ↔ v ∈ values := by
  constructor
  · intro hv
    obtain ⟨e, he, rfl⟩ := List.mem_map.1 hv
    exact (mem_of_mem_ofList he).1
  · intro hv
    have hkey : (ofList (values.map fun v => (key v, v))).get? (key v) = some v := by
      apply get?_insertMany_of_forall
      · intro e he hsame
        obtain ⟨w, hw, rfl⟩ := List.mem_map.1 he
        exact h w hw v hv hsame
      · exact .inl (List.mem_map.2 ⟨_, List.mem_map_of_mem hv, rfl⟩)
    exact List.mem_map.2 ⟨(key v, v), (get?_eq_some_iff _).1 hkey, rfl⟩

end Dictionary

end Resettle
