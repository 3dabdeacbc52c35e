import Resettle.Inventory.Routes
import Resettle.Proofs.Disk.Writing
import Resettle.Proofs.Inventory.Batches

/-!
# The files of a batch by themselves

The maps of a batch tell files apart by the places that their paths name, but a file is read, and
its result is made, by its path as it is spelled.  So a batch says of every file what a batch of
that file alone says just if the spellings of one place among its files come to one result.
-/

namespace Resettle.Batch

section

variable {σ α β : Type} (c : Collector σ β) (keep : Path → β → α) (d : Disk)

/-- What a file gives by itself: what is kept of it, or the message of its error. -/
def resultOf (p : Path) : Except String α :=
  ((c.ofFile d p).map (keep p)).mapError Error.message

def valueOf? (p : Path) : Option α :=
  (resultOf c keep d p).toOption

def messageOf? (p : Path) : Option String :=
  match resultOf c keep d p with
  | .ok _ => none
  | .error message => some message

theorem resultOf_eq_iff {p q : Path} :
    resultOf c keep d p = resultOf c keep d q ↔
      valueOf? c keep d p = valueOf? c keep d q ∧
        messageOf? c keep d p = messageOf? c keep d q := by
  unfold valueOf? messageOf?
  cases resultOf c keep d p <;> cases resultOf c keep d q <;> simp [Except.toOption]

theorem isSome_messageOf? (p : Path) :
    (messageOf? c keep d p).isSome = !(valueOf? c keep d p).isSome := by
  unfold valueOf? messageOf?
  cases resultOf c keep d p <;> rfl

theorem mapFiles_eq (m : Mode) (paths : List Path) :
    mapFiles m c keep d paths =
      ⟨.gather (valueOf? c keep d) paths, .gather (messageOf? c keep d) paths⟩ := by
  unfold mapFiles PathMap.gather
  rw [Mode.run_eq_map, ofResults_eq, List.filterMap_map, List.filterMap_map]
  congr 2
  · refine List.filterMap_congr fun p _ => ?_
    show value? (p, (c.ofFile d p).map (keep p)) = _
    unfold value? valueOf? resultOf
    cases c.ofFile d p <;> rfl
  · refine List.filterMap_congr fun p _ => ?_
    show message? (p, (c.ofFile d p).map (keep p)) = _
    unfold message? messageOf? resultOf
    cases c.ofFile d p <;> rfl

/-- A batch has its files apart from each other.  Files are told apart by the places of their
paths, as the maps tell their keys. -/
structure KeepsApart (m : Mode) (paths : List Path) : Prop where
  /-- Each file is in one of the maps and in one only. -/
  lands : ∀ p ∈ paths, (mapFiles m c keep d paths).success.contains p =
    !(mapFiles m c keep d paths).errors.contains p
  /-- The maps list their files in the order in which these came first, and no others. -/
  successOrder : (mapFiles m c keep d paths).success.keys =
    (paths.filter (mapFiles m c keep d paths).success.contains).eraseDupsBy Path.sameAs
  errorOrder : (mapFiles m c keep d paths).errors.keys =
    (paths.filter (mapFiles m c keep d paths).errors.contains).eraseDupsBy Path.sameAs
  /-- What a batch of a file alone says of it. -/
  success : ∀ p ∈ paths, (mapFiles m c keep d paths).success.get? p =
    (mapFiles m c keep d [p]).success.get? p
  errors : ∀ p ∈ paths, (mapFiles m c keep d paths).errors.get? p =
    (mapFiles m c keep d [p]).errors.get? p
  /-- The mode does not show. -/
  modes : ∀ m', mapFiles m' c keep d paths = mapFiles m c keep d paths

variable {c keep d}

/-- Where the spellings of a place come to one reading, a map has the places that can be read. -/
theorem contains_gather_eq {γ : Type} {read? : Path → Option γ} {paths : List Path}
    (h : ∀ p ∈ paths, ∀ q ∈ paths, p.place = q.place → read? p = read? q) {q : Path}
    (hq : q ∈ paths) : (PathMap.gather read? paths).contains q = (read? q).isSome := by
  rw [Bool.eq_iff_iff, PathMap.contains_gather_iff]
  constructor
  · rintro ⟨p, hp, hplace, hsome⟩
    rwa [h p hp q hq hplace] at hsome
  · exact fun hsome => ⟨q, hq, rfl, hsome⟩

theorem keys_gather_eq {γ : Type} {read? : Path → Option γ} {paths : List Path}
    (h : ∀ p ∈ paths, ∀ q ∈ paths, p.place = q.place → read? p = read? q) :
    (PathMap.gather read? paths).keys =
      (paths.filter (PathMap.gather read? paths).contains).eraseDupsBy Path.sameAs := by
  rw [PathMap.keys_gather]
  congr 1
  exact List.filter_congr fun q hq => (contains_gather_eq h hq).symm

theorem keepsApart_of_agree (m : Mode) {paths : List Path}
    (h : ∀ p ∈ paths, ∀ q ∈ paths, p.place = q.place →
      resultOf c keep d p = resultOf c keep d q) : KeepsApart c keep d m paths := by
  have hvalue : ∀ p ∈ paths, ∀ q ∈ paths, p.place = q.place →
      valueOf? c keep d p = valueOf? c keep d q :=
    fun p hp q hq hplace => ((resultOf_eq_iff c keep d).1 (h p hp q hq hplace)).1
  have hmessage : ∀ p ∈ paths, ∀ q ∈ paths, p.place = q.place →
      messageOf? c keep d p = messageOf? c keep d q :=
    fun p hp q hq hplace => ((resultOf_eq_iff c keep d).1 (h p hp q hq hplace)).2
  constructor
  · intro p hp
    rw [mapFiles_eq, contains_gather_eq hvalue hp, contains_gather_eq hmessage hp,
      isSome_messageOf?, Bool.not_not]
  · rw [mapFiles_eq]
    exact keys_gather_eq hvalue
  · rw [mapFiles_eq]
    exact keys_gather_eq hmessage
  · intro p hp
    rw [mapFiles_eq, mapFiles_eq, PathMap.get?_gather_singleton]
    exact PathMap.get?_gather hp fun q hq hplace => hvalue q hq p hp hplace.symm
  · intro p hp
    rw [mapFiles_eq, mapFiles_eq, PathMap.get?_gather_singleton]
    exact PathMap.get?_gather hp fun q hq hplace => hmessage q hq p hp hplace.symm
  · intro m'
    rw [mapFiles_eq, mapFiles_eq]

/-- What a batch says of a file it says of every spelling of the path. -/
theorem agree_of_keepsApart {m : Mode} {paths : List Path} (h : KeepsApart c keep d m paths)
    {p q : Path} (hp : p ∈ paths) (hq : q ∈ paths) (hplace : p.place = q.place) :
    resultOf c keep d p = resultOf c keep d q := by
  have hvalue : ∀ r ∈ paths, valueOf? c keep d r =
      (mapFiles m c keep d paths).success.get? r := fun r hr => by
    rw [h.success r hr, mapFiles_eq, PathMap.get?_gather_singleton]
  have hmessage : ∀ r ∈ paths, messageOf? c keep d r =
      (mapFiles m c keep d paths).errors.get? r := fun r hr => by
    rw [h.errors r hr, mapFiles_eq, PathMap.get?_gather_singleton]
  apply (resultOf_eq_iff c keep d).2
  constructor
  · rw [hvalue p hp, hvalue q hq, PathMap.get?_congr _ hplace]
  · rw [hmessage p hp, hmessage q hq, PathMap.get?_congr _ hplace]

end

/-- A batch keeps its files apart just if the spellings of one place among them come to one
result. -/
theorem keepsApart_iff {σ α β : Type} (c : Collector σ β) (keep : Path → β → α) (d : Disk)
    (m : Mode) (paths : List Path) :
    KeepsApart c keep d m paths ↔
      ∀ p ∈ paths, ∀ q ∈ paths, p.place = q.place → resultOf c keep d p = resultOf c keep d q :=
  ⟨fun h _ hp _ hq => agree_of_keepsApart h hp hq, keepsApart_of_agree m⟩

/-- A disk with two files, of which one cannot be parsed. -/
def twoFiles : Disk :=
  .ofEntries [([], "c", .directory), (["c"], "good.php", .file (.text "<?php ") false),
    (["c"], "bad.php", .file (.text "<?php (") false)]

/-- A separator behind a name makes a good file a bad one under the same key, and of two spellings
the first stands over the message for the other. -/
theorem not_keepsApart_respelled :
    let paths : List Path :=
      [⟨"c/good.php"⟩, ⟨"c/good.php/"⟩, ⟨"c//bad.php"⟩, ⟨"c/bad.php"⟩]
    let b := mapFiles .sequential Routes.collector (fun _ routes => routes) twoFiles paths
    (b.success.contains ⟨"c/good.php"⟩ = true ∧ b.errors.contains ⟨"c/good.php"⟩ = true) ∧
      b.errors.keys = [⟨"c/good.php/"⟩, ⟨"c//bad.php"⟩] ∧
      b.errors.get? ⟨"c//bad.php"⟩ = some "Error parsing PHP file 'c/bad.php'" ∧
      ¬ KeepsApart Routes.collector (fun _ routes => routes) twoFiles .sequential paths := by
  intro paths b
  have hsuccess : b.success.contains ⟨"c/good.php"⟩ = true := by decide +kernel
  have herrors : b.errors.contains ⟨"c/good.php"⟩ = true := by decide +kernel
  refine ⟨⟨hsuccess, herrors⟩, by decide +kernel, by decide +kernel, fun h => ?_⟩
  have hlands := h.lands ⟨"c/good.php"⟩ List.mem_cons_self
  rw [hsuccess, herrors] at hlands
  cases hlands

end Resettle.Batch
