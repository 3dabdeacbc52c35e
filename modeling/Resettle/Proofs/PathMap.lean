import Mathlib.Data.List.Nodup
import Resettle.PathMap

/-!
# Path maps put together

What is found under a path after entries were inserted in turn, and under which spellings.  A map
of many entries has each place once, spelled as it was when it first came, with the value that came
last.
-/

namespace Resettle

namespace Path

def sameAs (p q : Path) : Bool :=
  p.place == q.place

end Path

namespace PathMap

variable {α : Type}

theorem ext {m m' : PathMap α} (h : m.entries = m'.entries) : m = m' := by
  cases m
  cases m'
  cases h
  rfl

/-! ## Entries at places of their own -/

theorem insert_of_notMem {m : PathMap α} {path : Path} (h : path.place ∉ m.places) (value : α) :
    (m.insert path value).entries = m.entries ++ [(path, value)] := by
  unfold insert
  rw [dif_neg h]

theorem insertMany_of_nodup {m : PathMap α} {es : List (Path × α)}
    (h : (m.places ++ es.map fun e => e.1.place).Nodup) :
    (m.insertMany es).entries = m.entries ++ es := by
  unfold insertMany
  induction es generalizing m with
  | nil => simp
  | cons e es ih =>
      have hnew : e.1.place ∉ m.places := fun hmem =>
        (List.nodup_append.1 h).2.2 _ hmem _ List.mem_cons_self rfl
      have hentries := insert_of_notMem hnew e.2
      have hrest : ((m.insert e.1 e.2).places ++ es.map fun e => e.1.place).Nodup := by
        unfold places
        rw [hentries, List.map_append, List.append_assoc]
        exact h
      rw [List.foldl_cons, ih hrest, hentries, List.append_assoc]
      rfl

theorem ofList_entries (m : PathMap α) : ofList m.entries = m :=
  ext (insertMany_of_nodup m.nodup)

theorem insert_of_mem {m : PathMap α} {e : Path × α} (h : e ∈ m.entries) :
    m.insert e.1 e.2 = m := by
  have hplace : e.1.place ∈ m.places := List.mem_map_of_mem h
  have hsame : replace e.1 e.2 m.entries = m.entries := by
    refine (List.map_congr_left fun x hx => ?_).trans (List.map_id _)
    split
    · next heq =>
        obtain rfl := List.inj_on_of_nodup_map m.nodup hx h heq
        rfl
    · rfl
  unfold insert
  rw [dif_pos hplace]
  cases m
  congr

theorem insertMany_of_subset {m : PathMap α} {es : List (Path × α)} (h : es ⊆ m.entries) :
    m.insertMany es = m := by
  unfold insertMany
  induction es with
  | nil => rfl
  | cons e es ih =>
      rw [List.cons_subset] at h
      rw [List.foldl_cons, insert_of_mem h.1]
      exact ih h.2

/-! ## Keys -/

theorem keys_insert (m : PathMap α) (path : Path) (value : α) :
    (m.insert path value).keys = if path.place ∈ m.places then m.keys else m.keys ++ [path] := by
  unfold insert
  by_cases h : path.place ∈ m.places
  · rw [dif_pos h, if_pos h]
    show (replace path value m.entries).map Prod.fst = m.entries.map Prod.fst
    rw [replace, List.map_map]
    refine List.map_congr_left fun e _ => ?_
    show (if e.1.place = path.place then (e.1, value) else e).1 = e.1
    split <;> rfl
  · rw [dif_neg h, if_neg h]
    exact List.map_append

/-- Behind the keys that are there stand the new ones, each place in its first spelling. -/
theorem keys_insertMany (m : PathMap α) (es : List (Path × α)) :
    (m.insertMany es).keys =
      m.keys ++ ((es.map Prod.fst).filter fun p => p.place ∉ m.places).eraseDupsBy Path.sameAs := by
  induction es generalizing m with
  | nil => simp [insertMany]
  | cons e es ih =>
      show ((m.insert e.1 e.2).insertMany es).keys = _
      rw [ih, keys_insert, places_insert, List.map_cons, List.filter_cons]
      by_cases h : e.1.place ∈ m.places
      · simp [h]
      · have hothers : ∀ p : Path, decide (p.place ∉ m.places ++ [e.1.place]) =
            (decide (p.sameAs e.1 = false) && decide (p.place ∉ m.places)) := by
          intro p
          rw [Bool.eq_iff_iff]
          simp [Path.sameAs, and_comm]
        simp only [h, if_false, not_false_eq_true, decide_true, if_true, List.eraseDupsBy_cons,
          List.filter_filter, hothers, List.append_assoc, List.singleton_append]

theorem keys_ofList (es : List (Path × α)) :
    (ofList es).keys = (es.map Prod.fst).eraseDupsBy Path.sameAs := by
  rw [ofList, keys_insertMany]
  simp [empty, keys, places]

/-! ## Look-up -/

theorem get?_congr (m : PathMap α) {p q : Path} (h : p.place = q.place) : m.get? p = m.get? q := by
  unfold get?
  rw [h]

theorem get?_insert (m : PathMap α) (path : Path) (value : α) (q : Path) :
    (m.insert path value).get? q = if q.place = path.place then some value else m.get? q := by
  by_cases hmem : path.place ∈ m.places
  · have hplace : ∀ e : Path × α, (if e.1.place = path.place then (e.1, value) else e).1.place =
        e.1.place := fun e => by split <;> rfl
    have hentries : (m.insert path value).entries = replace path value m.entries := by
      rw [insert, dif_pos hmem]
    rw [get?, hentries, replace, List.find?_map, Option.map_map]
    simp only [Function.comp_def, hplace]
    by_cases hq : q.place = path.place
    · obtain ⟨e, he, hsame⟩ := List.mem_map.1 hmem
      rw [if_pos hq]
      cases hfind : m.entries.find? fun e => e.1.place == q.place with
      | none => simpa [hq, hsame] using List.find?_eq_none.1 hfind e he
      | some found =>
          have hfound : found.1.place = path.place := by simpa [hq] using List.find?_some hfind
          simp [hfound]
    · rw [if_neg hq, get?]
      cases hfind : m.entries.find? fun e => e.1.place == q.place with
      | none => rfl
      | some found =>
          have hfound : found.1.place = q.place := by simpa using List.find?_some hfind
          have hne : ¬ found.1.place = path.place := hfound ▸ hq
          simp [hne]
  · rw [get?, insert_of_notMem hmem, List.find?_append]
    by_cases hq : q.place = path.place
    · have hnone : (m.entries.find? fun e => e.1.place == q.place) = none := by
        refine List.find?_eq_none.2 fun e he => ?_
        rw [hq, beq_iff_eq]
        exact fun hsame => hmem (List.mem_map.2 ⟨e, he, hsame⟩)
      rw [hnone]
      simp [hq]
    · simp [get?, hq, Ne.symm hq]

theorem get?_insertMany_of_notMem (m : PathMap α) {es : List (Path × α)} {q : Path}
    (h : ∀ e ∈ es, q.place ≠ e.1.place) : (m.insertMany es).get? q = m.get? q := by
  induction es generalizing m with
  | nil => rfl
  | cons e es ih =>
      obtain ⟨hne, hrest⟩ := List.forall_mem_cons.1 h
      show ((m.insert e.1 e.2).insertMany es).get? q = _
      rw [ih _ hrest, get?_insert, if_neg hne]

/-- Where the entries of a place have one value, the order in which they came does not show. -/
theorem get?_insertMany_of_forall (m : PathMap α) {es : List (Path × α)} {q : Path} {value : α}
    (h : ∀ e ∈ es, q.place = e.1.place → e.2 = value)
    (hthere : (∃ e ∈ es, q.place = e.1.place) ∨ m.get? q = some value) :
    (m.insertMany es).get? q = some value := by
  induction es generalizing m with
  | nil =>
      rcases hthere with ⟨e, he, -⟩ | hm
      · exact absurd he List.not_mem_nil
      · exact hm
  | cons e es ih =>
      obtain ⟨hfirst, hrest⟩ := List.forall_mem_cons.1 h
      show ((m.insert e.1 e.2).insertMany es).get? q = _
      apply ih _ hrest
      rw [get?_insert]
      by_cases hq : q.place = e.1.place
      · rw [if_pos hq, hfirst hq]
        exact .inr rfl
      · rw [if_neg hq]
        refine hthere.imp_left ?_
        rintro ⟨other, hother, hplace⟩
        rcases List.mem_cons.1 hother with rfl | hmem
        · exact absurd hplace hq
        · exact ⟨other, hmem, hplace⟩

theorem mem_places_insertMany (m : PathMap α) (es : List (Path × α)) (place : List String) :
    place ∈ (m.insertMany es).places ↔ place ∈ m.places ∨ ∃ e ∈ es, e.1.place = place := by
  induction es generalizing m with
  | nil => simp [insertMany]
  | cons e es ih =>
      have hfirst : place ∈ (m.insert e.1 e.2).places ↔ place ∈ m.places ∨ e.1.place = place := by
        rw [places_insert]
        split
        · next hmem => exact ⟨.inl, fun h => h.elim id fun heq => heq ▸ hmem⟩
        · simp [eq_comm]
      show place ∈ ((m.insert e.1 e.2).insertMany es).places ↔ _
      rw [ih, hfirst, or_assoc, List.exists_mem_cons_iff]

theorem contains_ofList_iff (es : List (Path × α)) (q : Path) :
    (ofList es).contains q = true ↔ ∃ e ∈ es, e.1.place = q.place := by
  rw [contains, List.contains_iff_mem, ofList, mem_places_insertMany]
  simp [empty, places]

/-! ## What is read at some paths -/

/-- What can be read at the paths of a list, each reading under its path. -/
def gather (read? : Path → Option α) (paths : List Path) : PathMap α :=
  ofList (paths.filterMap fun p => (read? p).map fun a => (p, a))

theorem mem_readings_iff {read? : Path → Option α} {paths : List Path} {e : Path × α} :
    e ∈ paths.filterMap (fun p => (read? p).map fun a => (p, a)) ↔
      e.1 ∈ paths ∧ read? e.1 = some e.2 := by
  rw [List.mem_filterMap]
  constructor
  · rintro ⟨p, hp, hread⟩
    obtain ⟨a, ha, rfl⟩ := Option.map_eq_some_iff.1 hread
    exact ⟨hp, ha⟩
  · rintro ⟨hp, hread⟩
    exact ⟨e.1, hp, by rw [hread]; rfl⟩

theorem contains_gather_iff {read? : Path → Option α} {paths : List Path} {q : Path} :
    (gather read? paths).contains q = true ↔
      ∃ p ∈ paths, p.place = q.place ∧ (read? p).isSome = true := by
  rw [gather, contains_ofList_iff]
  constructor
  · rintro ⟨e, he, hplace⟩
    obtain ⟨hp, hread⟩ := mem_readings_iff.1 he
    exact ⟨e.1, hp, hplace, Option.isSome_iff_exists.2 ⟨e.2, hread⟩⟩
  · rintro ⟨p, hp, hplace, hsome⟩
    obtain ⟨a, ha⟩ := Option.isSome_iff_exists.1 hsome
    exact ⟨(p, a), mem_readings_iff.2 ⟨hp, ha⟩, hplace⟩

theorem keys_gather (read? : Path → Option α) (paths : List Path) :
    (gather read? paths).keys =
      (paths.filter fun p => (read? p).isSome).eraseDupsBy Path.sameAs := by
  rw [gather, keys_ofList]
  congr 1
  induction paths with
  | nil => rfl
  | cons p paths ih =>
      rw [List.filterMap_cons, List.filter_cons]
      cases read? p with
      | none => exact ih
      | some a => exact congrArg (p :: ·) ih

theorem get?_gather {read? : Path → Option α} {paths : List Path} {q : Path} (hq : q ∈ paths)
    (h : ∀ p ∈ paths, q.place = p.place → read? p = read? q) :
    (gather read? paths).get? q = read? q := by
  rw [gather, ofList]
  cases hread : read? q with
  | none =>
      refine get?_insertMany_of_notMem _ fun e he hplace => ?_
      obtain ⟨hp, hsome⟩ := mem_readings_iff.1 he
      rw [h _ hp hplace, hread] at hsome
      cases hsome
  | some a =>
      refine get?_insertMany_of_forall _ (fun e he hplace => ?_) (.inl ?_)
      · obtain ⟨hp, hsome⟩ := mem_readings_iff.1 he
        rw [h _ hp hplace, hread] at hsome
        exact (Option.some.inj hsome).symm
      · exact ⟨(q, a), mem_readings_iff.2 ⟨hq, hread⟩, rfl⟩

theorem get?_gather_singleton (read? : Path → Option α) (q : Path) :
    (gather read? [q]).get? q = read? q :=
  get?_gather List.mem_cons_self fun _ hp _ => by rw [List.mem_singleton.1 hp]

end PathMap

end Resettle
