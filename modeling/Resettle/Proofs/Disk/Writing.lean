import Mathlib.Data.List.TakeDrop
import Resettle.Action

/-!
# Writing to a disk

A write that succeeds puts its content at the place its path names and leaves every other place
as it was.  A file that is there can always be written, and a write of what it holds already
gives the same disk.
-/

namespace Resettle

namespace Dictionary

variable {κ α : Type} [DecidableEq κ]

theorem put_of_find?_eq_some {key : κ} {value : α} {es : List (κ × α)}
    (h : find? key es = some value) : put key value es = es := by
  induction es with
  | nil => simp [find?] at h
  | cons e es ih =>
      obtain ⟨k, v⟩ := e
      by_cases hk : k = key
      · simp only [find?, hk, if_true, Option.some.injEq] at h
        simp only [put, hk, if_true, h]
      · simp only [find?, hk, if_false] at h
        simp only [put, hk, if_false, ih h]

theorem insert_of_get?_eq_some {d : Dictionary κ α} {key : κ} {value : α}
    (h : d.get? key = some value) : d.insert key value = d :=
  ext (put_of_find?_eq_some h)

end Dictionary

namespace Disk

/-! ## Walking -/

theorem walk_append (d : Disk) (names : List String) (place : Place) (more : List String) :
    d.walk place (names ++ more) = d.walk place names >>= fun mid => d.walk mid more := by
  induction names generalizing place with
  | nil => rfl
  | cons name rest ih =>
      rw [List.cons_append, walk, walk]
      cases d.entryAt? place with
      | none => rfl
      | some e =>
          cases e with
          | file content executable => rfl
          | directory =>
              by_cases hstay : name = "" ∨ name = "."
              · simp only [hstay, if_true]
                exact ih place
              · by_cases hup : name = ".."
                · simp only [hstay, if_false, if_pos hup]
                  exact ih place.dropLast
                · by_cases hlong : maxName < name.utf8ByteSize
                  · simp only [hstay, hup, hlong, if_true, if_false]
                    rfl
                  · simp only [hstay, hup, hlong, if_false]
                    exact ih (place ++ [name])

/-- Two disks with directories at the same places and files at the same places. -/
def Alike (d d' : Disk) : Prop :=
  ∀ place, (d'.entryAt? place).map (· == .directory) = (d.entryAt? place).map (· == .directory)

theorem Alike.walk {d d' : Disk} (h : d.Alike d') (names : List String) (place : Place) :
    d'.walk place names = d.walk place names := by
  induction names generalizing place with
  | nil => rfl
  | cons name rest ih =>
      have hkind := h place
      rw [Disk.walk, Disk.walk]
      cases he : d.entryAt? place with
      | none =>
          rw [he] at hkind
          rw [Option.map_eq_none_iff.1 hkind]
      | some e =>
          rw [he] at hkind
          obtain ⟨e', he', hsame⟩ := Option.map_eq_some_iff.1 hkind
          rw [he']
          cases e <;> cases e' <;> simp_all

/-! ## Entries -/

theorem entryAt?_of_isDirectoryAt {d : Disk} {place : Place} (h : d.isDirectoryAt place = true) :
    d.entryAt? place = some .directory := by
  rw [isDirectoryAt, beq_iff_eq] at h
  exact h

theorem add_here (d : Disk) (dir : Place) (name : String) (e : Entry) :
    (d.add dir name e).here = d.here := by
  unfold add
  split <;> rfl

theorem entryAt?_add_of_ne (d : Disk) {dir : Place} {name : String} (e : Entry) {place : Place}
    (h : place ≠ dir ++ [name]) : (d.add dir name e).entryAt? place = d.entryAt? place := by
  unfold add
  split
  · unfold entryAt?
    by_cases hroot : place = []
    · rw [if_pos hroot, if_pos hroot]
    · rw [if_neg hroot, if_neg hroot]
      exact Dictionary.get?_insert_of_ne _ h _
  · rfl

theorem entryAt?_add_self {d : Disk} {dir : Place} {name : String} (e : Entry)
    (hdir : d.isDirectoryAt dir = true) (hname : d.isDirectoryAt (dir ++ [name]) = false) :
    (d.add dir name e).entryAt? (dir ++ [name]) = some e := by
  unfold add entryAt?
  rw [dif_pos ⟨hdir, hname⟩, if_neg (by simp)]
  exact Dictionary.get?_insert_self _ _ _

theorem add_of_entryAt?_eq_some {d : Disk} {dir : Place} {name : String} {e : Entry}
    (h : d.entryAt? (dir ++ [name]) = some e) : d.add dir name e = d := by
  unfold add
  split
  · rw [entryAt?, if_neg (by simp)] at h
    have hsame := Dictionary.insert_of_get?_eq_some h
    cases d
    simp only at hsame ⊢
    congr
  · rfl

/-- The disk with a list of entries added in turn, each under a name of a directory. -/
def ofEntries (es : List (Place × String × Entry)) : Disk :=
  es.foldl (fun d e => d.add e.1 e.2.1 e.2.2) (empty [])

/-! ## The place of a file -/

theorem look_eq_ok_iff {d : Disk} {p : Path} {e : Entry} :
    d.look p = .ok e ↔ ∃ place, d.placeOf p = .ok place ∧ d.entryAt? place = some e := by
  unfold look
  cases hp : d.placeOf p with
  | error cause => simp [bind, Except.bind]
  | ok place =>
      simp only [bind, Except.bind, Except.ok.injEq, exists_eq_left']
      cases he : d.entryAt? place <;> simp

theorem text_eq_ok_iff {d : Disk} {p : Path} {s : String} :
    d.text p = .ok s ↔ ∃ executable, d.look p = .ok (.file (.text s) executable) := by
  unfold text content
  cases hlook : d.look p with
  | error cause => simp [bind, Except.bind]
  | ok e =>
      cases e with
      | directory => simp [bind, Except.bind]
      | file c executable => cases c <;> simp [bind, Except.bind]

theorem readText_eq_ok_iff {d : Disk} {p : Path} {s : String} :
    d.readText p = .ok s ↔ d.text p = .ok s := by
  unfold readText
  cases d.text p <;> simp [Except.mapError]

theorem isDirectoryAt_of_entryAt? {d : Disk} {dir : Place} {name : String} {e : Entry}
    (h : d.entryAt? (dir ++ [name]) = some e) : d.isDirectoryAt dir = true := by
  rw [entryAt?, if_neg (by simp), Dictionary.get?_eq_some_iff] at h
  obtain ⟨dir', name', hkey, hdir⟩ := d.rooted _ h
  obtain ⟨rfl, -⟩ := List.append_inj' hkey rfl
  rw [isDirectoryAt, beq_iff_eq, entryAt?]
  by_cases hroot : dir = []
  · rw [if_pos hroot]
  · rw [if_neg hroot]
    exact (d.entries.get?_eq_some_iff).2 (hdir.resolve_left hroot)

theorem isDirectoryAt_dropLast {d : Disk} {place : Place} (h : d.isDirectoryAt place = true) :
    d.isDirectoryAt place.dropLast = true := by
  rcases List.eq_nil_or_concat place with rfl | ⟨dir, name, hplace⟩
  · exact h
  · rw [List.concat_eq_append] at hplace
    subst hplace
    rw [List.dropLast_concat]
    exact isDirectoryAt_of_entryAt? (entryAt?_of_isDirectoryAt h)

/-- The last step of a walk to a file goes from its directory to its name. -/
theorem walk_last {d : Disk} {mid place : Place} {last : String} {c : Content} {executable : Bool}
    (h : d.walk mid [last] = .ok place) (he : d.entryAt? place = some (.file c executable)) :
    d.isDirectoryAt mid = true ∧ place = mid ++ [last] ∧ last ≠ "" ∧ isDots last = false ∧
      last.utf8ByteSize ≤ maxName := by
  rw [walk] at h
  cases hmid : d.entryAt? mid with
  | none =>
      rw [hmid] at h
      cases h
  | some entry =>
      cases entry with
      | file _ _ =>
          rw [hmid] at h
          cases h
      | directory =>
          have hdir : d.isDirectoryAt mid = true := by rw [isDirectoryAt, hmid, beq_self_eq_true]
          have notDirectory : ∀ {q}, d.isDirectoryAt q = true → place ≠ q := by
            intro q hq heq
            rw [heq, entryAt?_of_isDirectoryAt hq] at he
            cases he
          simp only [hmid, walk] at h
          by_cases hstay : last = "" ∨ last = "."
          · rw [if_pos hstay] at h
            cases h
            exact absurd rfl (notDirectory hdir)
          · rw [if_neg hstay] at h
            by_cases hup : last = ".."
            · rw [if_pos hup] at h
              cases h
              exact absurd rfl (notDirectory (isDirectoryAt_dropLast hdir))
            · rw [if_neg hup] at h
              by_cases hlong : maxName < last.utf8ByteSize
              · rw [if_pos hlong] at h
                cases h
              · rw [if_neg hlong] at h
                cases h
                exact ⟨hdir, rfl, by tauto, by simp [isDots]; tauto, by omega⟩

theorem splitLast_of_segments {p : Path} {front : List String} {last : String}
    (h : p.segments = front ++ [last]) (hne : last ≠ "") :
    splitLast p = some ⟨front, last, false⟩ := by
  rw [splitLast, h, List.reverse_append, List.reverse_singleton, List.singleton_append,
    List.span_eq_takeWhile_dropWhile, List.takeWhile_cons_of_neg (by simpa using hne),
    List.dropWhile_cons_of_neg (by simpa using hne)]
  simp

/-- A path to a file leads through directories to the file's directory and ends in its name. -/
theorem exists_parent_of_look {d : Disk} {p : Path} {c : Content} {executable : Bool}
    (h : d.look p = .ok (.file c executable)) :
    ∃ s dir, p.text ≠ "" ∧ splitLast p = some s ∧ s.slashed = false ∧ isDots s.last = false ∧
      d.isDirectoryAt dir = true ∧ d.parentOf p s = .ok (dir, s.last) ∧
      d.placeOf p = .ok (dir ++ [s.last]) := by
  obtain ⟨place, hplace, he⟩ := look_eq_ok_iff.1 h
  have hwalk := hplace
  unfold placeOf at hwalk
  by_cases htext : p.text = ""
  · rw [if_pos htext] at hwalk
    cases hwalk
  · rw [if_neg htext] at hwalk
    rcases List.eq_nil_or_concat p.segments with hnil | ⟨front, last, hcut⟩
    · exact absurd (List.map_eq_nil_iff.1 hnil) (Text.split_ne_nil _ _)
    · rw [List.concat_eq_append] at hcut
      rw [hcut, walk_append] at hwalk
      cases hfront : d.walk (d.start p) front with
      | error cause =>
          rw [hfront] at hwalk
          cases hwalk
      | ok mid =>
          rw [hfront] at hwalk
          obtain ⟨hdir, hend, hne, hdots, hshort⟩ := walk_last hwalk he
          refine ⟨⟨front, last, false⟩, mid, htext, splitLast_of_segments hcut hne, rfl, hdots,
            hdir, ?_, hend ▸ hplace⟩
          unfold parentOf
          rw [hfront]
          simp only [bind, Except.bind, entryAt?_of_isDirectoryAt hdir]
          exact if_neg (by omega)

/-! ## Writing to a file that is there -/

/-- `d'` is `d` with other content in the file at a place. -/
structure Rewritten (d : Disk) (place : Place) (c : Content) (d' : Disk) : Prop where
  here : d'.here = d.here
  before : ∃ old executable, d.entryAt? place = some (.file old executable) ∧
    d'.entryAt? place = some (.file c executable)
  elsewhere : ∀ other, other ≠ place → d'.entryAt? other = d.entryAt? other

namespace Rewritten

variable {d d' : Disk} {place : Place} {c : Content}

theorem alike (h : d.Rewritten place c d') : d.Alike d' := by
  intro other
  by_cases hother : other = place
  · obtain ⟨old, executable, hold, hnew⟩ := h.before
    rw [hother, hold, hnew]
    rfl
  · rw [h.elsewhere other hother]

theorem placeOf (h : d.Rewritten place c d') (p : Path) : d'.placeOf p = d.placeOf p := by
  unfold Disk.placeOf start
  rw [h.here, h.alike.walk]

theorem look (h : d.Rewritten place c d') {p : Path} (hp : d.placeOf p = .ok place) :
    ∃ executable, d'.look p = .ok (.file c executable) := by
  obtain ⟨_, executable, _, hnew⟩ := h.before
  exact ⟨executable, look_eq_ok_iff.2 ⟨place, (h.placeOf p).trans hp, hnew⟩⟩

theorem look_of_ne (h : d.Rewritten place c d') {p : Path} (hp : d.placeOf p ≠ .ok place) :
    d'.look p = d.look p := by
  unfold Disk.look
  rw [h.placeOf p]
  cases hother : d.placeOf p with
  | error cause => rfl
  | ok other =>
      have hne : other ≠ place := fun heq => hp (heq ▸ hother)
      simp only [bind, Except.bind, h.elsewhere other hne]

end Rewritten

/-- A file that is there can be written, and nothing else changes. -/
theorem write_of_look {d : Disk} {p : Path} {old : Content} {executable : Bool}
    (h : d.look p = .ok (.file old executable)) (c : Content) :
    ∃ place d', d.placeOf p = .ok place ∧ d.write p c = .ok d' ∧ d.Rewritten place c d' ∧
      (c = old → d' = d) := by
  obtain ⟨s, dir, htext, hsplit, hslashed, hdots, hdir, hparent, hplace⟩ :=
    exists_parent_of_look h
  obtain ⟨place, hplace', he⟩ := look_eq_ok_iff.1 h
  obtain rfl : dir ++ [s.last] = place := Except.ok.inj (hplace.symm.trans hplace')
  have hfile : d.isDirectoryAt (dir ++ [s.last]) = false := by
    rw [isDirectoryAt, he]
    rfl
  refine ⟨dir ++ [s.last], d.add dir s.last (.file c executable), hplace, ?_, ⟨?_, ?_, ?_⟩, ?_⟩
  · rw [write, if_neg htext]
    simp only [hsplit, bind, Except.bind, hparent, hdots, hslashed, Bool.or_false, he]
    rfl
  · exact add_here d dir s.last _
  · exact ⟨old, executable, he, entryAt?_add_self _ hdir hfile⟩
  · intro other hother
    exact entryAt?_add_of_ne d _ hother
  · intro hsame
    exact add_of_entryAt?_eq_some (hsame ▸ he)

theorem write_of_text {d : Disk} {p : Path} {s : String} (h : d.text p = .ok s) :
    d.write p (.text s) = .ok d := by
  obtain ⟨executable, hlook⟩ := text_eq_ok_iff.1 h
  obtain ⟨_, d', _, hwrite, _, hsame⟩ := write_of_look hlook (.text s)
  rw [hwrite, hsame rfl]

end Disk

/-! ## Actions -/

namespace Action

variable {α β : Type}

/-- An action in front of another: an error ends both, and what it changed stays. -/
theorem finish_bind (a : Action α) (f : α → Action β) (d : Disk) :
    (a >>= f).finish d =
      match a.finish d with
      | (.ok value, d') => (f value).finish d'
      | (.error e, d') => (.error e, d') := by
  unfold finish ExceptT.run
  simp only [bind, ExceptT.bind, ExceptT.mk, StateT.bind, ExceptT.bindCont]
  cases a d with
  | mk result d' => cases result <;> rfl

theorem finish_get (d : Disk) : (get : Action Disk).finish d = (.ok d, d) :=
  rfl

theorem finish_reading (f : Disk → Except Error α) (d : Disk) :
    (reading f).finish d = (f d, d) :=
  rfl

theorem finish_writeText_of_write {d d' : Disk} {p : Path} {s : String}
    (h : d.write p (.text s) = .ok d') : (writeText p s).finish d = (.ok (), d') := by
  unfold writeText
  rw [finish_bind, finish_get]
  simp only [h]
  rfl

/-- The action changes nothing, however it ends. -/
def LeavesDisk (a : Action α) : Prop :=
  ∀ d, (a.finish d).2 = d

theorem leavesDisk_pure (value : α) : LeavesDisk (pure value : Action α) :=
  fun _ => rfl

theorem leavesDisk_throw (e : Error) : LeavesDisk (throw e : Action α) :=
  fun _ => rfl

theorem leavesDisk_get : LeavesDisk (get : Action Disk) :=
  fun _ => rfl

theorem LeavesDisk.bind {a : Action α} {f : α → Action β} (ha : LeavesDisk a)
    (hf : ∀ value, LeavesDisk (f value)) : LeavesDisk (a >>= f) := by
  intro d
  have hd := ha d
  rw [finish_bind]
  cases hrun : a.finish d with
  | mk result d' =>
      rw [hrun] at hd
      cases result with
      | ok value => exact (hf value d').trans hd
      | error e => exact hd

end Action

end Resettle
