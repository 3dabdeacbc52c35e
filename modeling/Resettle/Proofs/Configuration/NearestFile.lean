import Mathlib.Data.Nat.Find
import Resettle.Configuration.Search
import Resettle.Proofs.Disk.Directories

/-!
# The nearest configuration file

The directories above a path are searched from the nearest one on, and the search passes over
files that cannot be used.  The main statement is that the nearest file that exists decides the
configuration exactly if it can be used, or no file farther up states anything but the defaults.
-/

namespace Resettle

/-- The path so many levels above a path, if there are so many. -/
def Path.above : Nat → Path → Option Path
  | 0, p => some p
  | k + 1, p => p.parent?.bind (Path.above k)

namespace Configuration

/-- Of the directories that are searched from `start` on, `k` levels up is the first one that has a
property. -/
structure IsNearest (start : Path) (holds : Path → Prop) (k : Nat) (dir : Path) : Prop where
  within : k < searchDepth
  above : Path.above k start = some dir
  has : holds dir
  first : ∀ j < k, ∀ nearer, Path.above j start = some nearer → ¬ holds nearer

/-- Whether a directory has a configuration file, be it of any use or not. -/
def HasFile (d : Disk) (dir : Path) : Prop :=
  d.has (dir.join fileName) = true

instance (d : Disk) (dir : Path) : Decidable (HasFile d dir) :=
  inferInstanceAs (Decidable (_ = true))

/-- Whether the file of a directory can be read and states a configuration. -/
def States (d : Disk) (c : Configuration) (dir : Path) : Prop :=
  ∃ s, d.text (dir.join fileName) = .ok s ∧ ofText? s = some c

/-- A configuration is the one that the nearest file decides: what the file states, and the default
one if it states none or there is no file. -/
structure IsDecided (d : Disk) (start : Path) (c : Configuration) : Prop where
  valid : ∀ k dir stated, IsNearest start (HasFile d) k dir → States d stated dir → c = stated
  broken : ∀ k dir, IsNearest start (HasFile d) k dir → (∀ stated, ¬ States d stated dir) → c = {}
  missing : (∀ k dir, ¬ IsNearest start (HasFile d) k dir) → c = {}

variable {d : Disk} {start dir dir' : Path} {c : Configuration} {holds : Path → Prop} {j k : Nat}

/-! ## Searching upwards -/

theorem exists_isNearest (hk : k < searchDepth) (habove : Path.above k start = some dir)
    (h : holds dir) : ∃ k dir, IsNearest start holds k dir := by
  classical
  have hsome : ∃ k, k < searchDepth ∧ ∃ dir, Path.above k start = some dir ∧ holds dir :=
    ⟨k, hk, dir, habove, h⟩
  obtain ⟨hwithin, found, hfound, hholds⟩ := Nat.find_spec hsome
  refine ⟨Nat.find hsome, found, hwithin, hfound, hholds, fun j hj nearer hnearer hnear => ?_⟩
  exact Nat.find_min hsome hj ⟨hj.trans hwithin, nearer, hnearer, hnear⟩

/-- The first directory upwards for which a search finds anything is where it ends. -/
theorem findSome?_ancestors_of_first {α : Type} {f : Path → Option α} {a : α} {depth : Nat}
    (hk : k < depth) (habove : Path.above k start = some dir) (ha : f dir = some a)
    (hfirst : ∀ j < k, ∀ nearer, Path.above j start = some nearer → f nearer = none) :
    (start.ancestors depth).findSome? f = some a := by
  induction k generalizing start depth with
  | zero =>
      obtain ⟨depth, rfl⟩ := Nat.exists_eq_add_of_lt hk
      obtain rfl := Option.some.inj habove
      rw [Nat.zero_add, Path.ancestors, List.findSome?_cons, ha]
  | succ k ih =>
      obtain ⟨depth, rfl⟩ : ∃ n, depth = n + 1 := ⟨depth - 1, by omega⟩
      obtain ⟨parent, hparent, habove⟩ := Option.bind_eq_some_iff.1 habove
      rw [Path.ancestors, List.findSome?_cons, hfirst 0 (Nat.succ_pos k) start rfl, hparent]
      refine ih (by omega) habove fun j hj nearer hnearer => ?_
      refine hfirst (j + 1) (by omega) nearer ?_
      rw [Path.above, hparent, Option.bind_some, hnearer]

theorem findSome?_ancestors_eq_none {α : Type} {f : Path → Option α} {depth : Nat}
    (h : ∀ k < depth, ∀ dir, Path.above k start = some dir → f dir = none) :
    (start.ancestors depth).findSome? f = none := by
  induction depth generalizing start with
  | zero => rfl
  | succ depth ih =>
      rw [Path.ancestors, List.findSome?_cons, h 0 (Nat.succ_pos depth) start rfl]
      cases hparent : start.parent? with
      | none => rfl
      | some parent =>
          refine ih fun k hk dir hdir => h (k + 1) (by omega) dir ?_
          rw [Path.above, hparent, Option.bind_some, hdir]

/-! ## Files that can be used -/

theorem ofDirectory?_eq_some_iff : ofDirectory? d dir = some c ↔ States d c dir := by
  unfold ofDirectory? States
  cases d.text (dir.join fileName) with
  | ok s => simp
  | error cause => simp

def IsUsable (d : Disk) (dir : Path) : Prop :=
  ∃ c, States d c dir

theorem not_isUsable_iff : ¬ IsUsable d dir ↔ ofDirectory? d dir = none := by
  rw [Option.eq_none_iff_forall_ne_some]
  exact not_exists.trans (forall_congr' fun c => not_congr ofDirectory?_eq_some_iff.symm)

theorem IsUsable.hasFile (h : IsUsable d dir) : HasFile d dir := by
  obtain ⟨c, s, hs, -⟩ := h
  obtain ⟨executable, hlook⟩ := Disk.text_eq_ok_iff.1 hs
  exact Disk.has_of_look hlook

/-- The nearest file that can be used states the configuration that holds. -/
theorem nearest_of_usable (h : IsNearest start (IsUsable d) k dir) (hc : States d c dir) :
    nearest d start = c := by
  have hfound := findSome?_ancestors_of_first h.within h.above (ofDirectory?_eq_some_iff.2 hc)
    fun j hj nearer hnearer => not_isUsable_iff.1 (h.first j hj nearer hnearer)
  rw [nearest, hfound, Option.getD_some]

theorem nearest_of_unusable (h : ∀ k dir, ¬ IsNearest start (IsUsable d) k dir) :
    nearest d start = {} := by
  have hnone : (start.ancestors searchDepth).findSome? (ofDirectory? d) = none := by
    refine findSome?_ancestors_eq_none fun k hk dir hdir => not_isUsable_iff.1 fun husable => ?_
    obtain ⟨k, dir, hnearest⟩ := exists_isNearest hk hdir husable
    exact h k dir hnearest
  rw [nearest, hnone, Option.getD_none]

/-- The nearest file is the nearest one that can be used, if it can be used. -/
theorem IsNearest.usable (h : IsNearest start (HasFile d) k dir) (husable : IsUsable d dir) :
    IsNearest start (IsUsable d) k dir where
  within := h.within
  above := h.above
  has := husable
  first j hj nearer hnearer hnear := h.first j hj nearer hnearer hnear.hasFile

/-! ## What decides -/

/-- The nearest file that exists decides the configuration exactly if it can be used, or nothing
but the defaults stands in the file that is found farther up instead.  If it can be used, files
farther up have no influence. -/
theorem isDecided_nearest_iff (d : Disk) (start : Path) :
    (IsDecided d start (nearest d start) ↔
      ∀ k dir, IsNearest start (HasFile d) k dir → ¬ IsUsable d dir →
        ∀ j farther c, IsNearest start (IsUsable d) j farther → States d c farther → c = {}) ∧
      ∀ k dir, IsNearest start (HasFile d) k dir → IsUsable d dir →
        ∀ d' : Disk, (∀ j ≤ k, ∀ nearer, Path.above j start = some nearer →
          d'.text (nearer.join fileName) = d.text (nearer.join fileName)) →
          nearest d' start = nearest d start := by
  refine ⟨⟨fun h k dir hnearest hbroken j farther c hfarther hc => ?_, fun h => ⟨?_, ?_, ?_⟩⟩, ?_⟩
  · rw [← nearest_of_usable hfarther hc]
    exact h.broken k dir hnearest (not_exists.1 hbroken)
  · intro k dir stated hnearest hstated
    exact nearest_of_usable (hnearest.usable ⟨stated, hstated⟩) hstated
  · intro k dir hnearest hbroken
    by_cases hfarther : ∃ j farther, IsNearest start (IsUsable d) j farther
    · obtain ⟨j, farther, hfarther⟩ := hfarther
      obtain ⟨c, hc⟩ := hfarther.has
      rw [nearest_of_usable hfarther hc]
      exact h k dir hnearest (not_exists.2 hbroken) j farther c hfarther hc
    · exact nearest_of_unusable fun j farther hnear => hfarther ⟨j, farther, hnear⟩
  · intro hmissing
    refine nearest_of_unusable fun k dir hnear => ?_
    obtain ⟨j, nearer, hnearest⟩ : ∃ j nearer, IsNearest start (HasFile d) j nearer :=
      exists_isNearest hnear.within hnear.above hnear.has.hasFile
    exact hmissing j nearer hnearest
  · rintro k dir hnearest ⟨c, hc⟩ d' hsame
    have husable := hnearest.usable ⟨c, hc⟩
    have hstates : ∀ {j nearer stated}, j ≤ k → Path.above j start = some nearer →
        (States d' stated nearer ↔ States d stated nearer) := by
      intro j nearer stated hj hnearer
      rw [States, States, hsame j hj nearer hnearer]
    have husable' : IsNearest start (IsUsable d') k dir := by
      refine ⟨husable.within, husable.above, ⟨c, (hstates le_rfl husable.above).2 hc⟩, ?_⟩
      rintro j hj nearer hnearer ⟨stated, hstated⟩
      exact husable.first j hj nearer hnearer ⟨stated, (hstates hj.le hnearer).1 hstated⟩
    rw [nearest_of_usable husable hc,
      nearest_of_usable husable' ((hstates le_rfl husable.above).2 hc)]

/-- A file with a header that is never closed, and a valid file in the directory above. -/
def brokenBelowValid : Disk :=
  .ofEntries [([], fileName, .file (.text "[parsing]\nparallel = false\n") false),
    ([], "one", .directory), (["one"], fileName, .file (.text "[target\nbroken") false)]

/-- A broken file lets the file above it decide. -/
theorem not_isDecided_nearest_broken :
    ¬ ∀ (d : Disk) (start : Path), IsDecided d start (nearest d start) := by
  intro h
  have hread : nearest brokenBelowValid ⟨"one"⟩ = { parallel := false } := by decide +kernel
  have hbroken : ofDirectory? brokenBelowValid ⟨"one"⟩ = none := by decide +kernel
  have hnearest : IsNearest ⟨"one"⟩ (HasFile brokenBelowValid) 0 ⟨"one"⟩ :=
    ⟨by decide, rfl, by decide +kernel, fun j hj => absurd hj (Nat.not_lt_zero j)⟩
  have hdefault := (h brokenBelowValid ⟨"one"⟩).broken 0 ⟨"one"⟩ hnearest
    (not_exists.1 (not_isUsable_iff.2 hbroken))
  rw [hread] at hdefault
  exact absurd hdefault (by decide)

end Configuration

end Resettle
