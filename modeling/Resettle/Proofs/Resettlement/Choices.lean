import Resettle.Proofs.Resettlement.Stages

/-!
# Choices of a dispatcher

A dispatcher is asked for migrators and for migrations, in any order and any number of times.  It
remembers one thing of all that: the latest choice that found a migrator.  The first migrator for
its generation is the one that migrates, and before such a choice nothing is migrated.
-/

namespace Resettle.Dispatcher

/-! ## Requests and answers -/

inductive Request where
  | choose (g : Generation)
  | execute (p : Project)

inductive Answer where
  | chosen (found : Bool)
  | executed (m : Migration)

def answer (x : Dispatcher) (d : Disk) : Request → Answer × Dispatcher × Disk
  | .choose g => (.chosen (x.choose g).1, (x.choose g).2, d)
  | .execute p => (.executed (x.execute p d).1, x, (x.execute p d).2)

/-- Requests with their answers, the latest first. -/
abbrev History :=
  List (Request × Answer)

/-- The generation of the latest choice that was answered with yes. -/
def History.lastFound? : History → Option Generation
  | [] => none
  | (.choose g, .chosen true) :: _ => some g
  | _ :: earlier => lastFound? earlier

/-- A history and the dispatcher behind it, after one more request. -/
def turn (s : History × Dispatcher) (r : Disk × Request) : History × Dispatcher :=
  ((r.2, (s.2.answer r.1 r.2).1) :: s.1, (s.2.answer r.1 r.2).2.1)

/-- The history of some requests to a new dispatcher over some migrators, and the dispatcher behind
it.  Each request comes with the disk that it finds, which need not be the one that the request
before it left. -/
def serve (ms : List Migrator) (requests : List (Disk × Request)) : History × Dispatcher :=
  requests.foldl turn ([], ⟨ms, none⟩)

/-! ## What is remembered -/

/-- A dispatcher remembers the place of the first migrator for the generation that was found
last. -/
structure Remembers (ms : List Migrator) (h : History) (x : Dispatcher) : Prop where
  migrators : x.migrators = ms
  current : x.current = h.lastFound?.bind fun g => ms.findIdx? fun m => m.supports g
  found : ∀ g, h.lastFound? = some g → ∃ m ∈ ms, m.supports g = true

variable {ms : List Migrator} {h : History} {x : Dispatcher}

theorem remembers_new (ms : List Migrator) : Remembers ms [] ⟨ms, none⟩ where
  migrators := rfl
  current := rfl
  found := fun _ hlast => nomatch hlast

theorem Remembers.choose (hx : Remembers ms h x) (g : Generation) :
    Remembers ms ((.choose g, .chosen (x.choose g).1) :: h) (x.choose g).2 := by
  have hms := hx.migrators
  unfold Dispatcher.choose
  cases hfind : x.migrators.findIdx? fun m => m.supports g with
  | none => exact ⟨hms, hx.current, hx.found⟩
  | some i =>
      refine ⟨hms, ?_, ?_⟩
      · show some i = ms.findIdx? fun m => m.supports g
        rw [← hms, hfind]
      · intro g' hlast
        obtain rfl : g = g' := Option.some.inj hlast
        obtain ⟨hi, hsupports, -⟩ := List.findIdx?_eq_some_iff_getElem.1 hfind
        exact ⟨_, hms ▸ List.getElem_mem hi, hsupports⟩

theorem Remembers.turn {s : History × Dispatcher} (hs : Remembers ms s.1 s.2)
    (r : Disk × Request) : Remembers ms (turn s r).1 (turn s r).2 := by
  obtain ⟨d, request⟩ := r
  cases request with
  | choose g => exact hs.choose g
  | execute p => exact ⟨hs.migrators, hs.current, hs.found⟩

/-- Whatever was asked, a dispatcher remembers the latest choice that found a migrator. -/
theorem remembers_serve (ms : List Migrator) (requests : List (Disk × Request)) :
    Remembers ms (serve ms requests).1 (serve ms requests).2 := by
  have hrun : ∀ s : History × Dispatcher, Remembers ms s.1 s.2 →
      Remembers ms (requests.foldl Dispatcher.turn s).1 (requests.foldl Dispatcher.turn s).2 := by
    induction requests with
    | nil => exact fun _ hs => hs
    | cons r requests ih => exact fun s hs => ih _ (hs.turn r)
  exact hrun _ (remembers_new ms)

/-! ## What follows for the next request -/

/-- A migrator is the first of a list for a generation; `front` are those before it. -/
structure IsFirst (ms : List Migrator) (g : Generation) (front : List Migrator) (m : Migrator) :
    Prop where
  cut : ∃ behind, ms = front ++ m :: behind
  supports : m.supports g = true
  before : ∀ other ∈ front, other.supports g = false

theorem IsFirst.findIdx? {g : Generation} {front : List Migrator} {m : Migrator}
    (hm : IsFirst ms g front m) : (ms.findIdx? fun m => m.supports g) = some front.length := by
  obtain ⟨behind, rfl⟩ := hm.cut
  have hnone : (front.findIdx? fun m => m.supports g) = none :=
    List.findIdx?_eq_none_iff.2 hm.before
  rw [List.findIdx?_append, hnone, List.findIdx?_cons, if_pos hm.supports]
  simp

theorem exists_isFirst {g : Generation} (hg : ∃ m ∈ ms, m.supports g = true) :
    ∃ front m, IsFirst ms g front m := by
  have hsome : (ms.find? fun m => m.supports g).isSome = true := by simpa using hg
  obtain ⟨m, hfind⟩ := Option.isSome_iff_exists.1 hsome
  obtain ⟨hsupports, front, behind, rfl, hbefore⟩ := List.find?_eq_some_iff_append.1 hfind
  exact ⟨front, m, ⟨behind, rfl⟩, hsupports, fun other hother => by simpa using hbefore other hother⟩

theorem execute_of_isFirst {g : Generation} {front : List Migrator} {m : Migrator}
    (hx : Remembers ms h x) (hlast : h.lastFound? = some g) (hm : IsFirst ms g front m) :
    x.current = some front.length ∧ ∀ p, x.execute p = m.execute p := by
  have hcurrent : x.current = some front.length := by
    rw [hx.current, hlast]
    exact hm.findIdx?
  have hchosen : x.chosen? = some m := by
    obtain ⟨behind, hcut⟩ := hm.cut
    rw [chosen?, hcurrent, hx.migrators, hcut]
    simp
  refine ⟨hcurrent, fun p => ?_⟩
  unfold execute
  rw [hchosen]

theorem execute_of_none (hx : Remembers ms h x) (hlast : h.lastFound? = none) (p : Project)
    (d : Disk) : x.current = none ∧ x.execute p d = (.empty, d) := by
  have hcurrent : x.current = none := by
    rw [hx.current, hlast]
    rfl
  refine ⟨hcurrent, ?_⟩
  unfold execute chosen?
  rw [hcurrent]
  rfl

/-- Only a choice that finds a migrator leaves another dispatcher behind. -/
theorem answer_keeps (x : Dispatcher) (d : Disk) (r : Request)
    (hanswer : (x.answer d r).1 ≠ .chosen true) : (x.answer d r).2.1 = x := by
  cases r with
  | execute p => rfl
  | choose g =>
      show (x.choose g).2 = x
      have hmissed : (x.choose g).1 ≠ true := fun hfound => hanswer (congrArg Answer.chosen hfound)
      unfold choose at hmissed ⊢
      cases hfind : x.migrators.findIdx? fun m => m.supports g with
      | none => rfl
      | some i =>
          rw [hfind] at hmissed
          exact absurd rfl hmissed

/-! ## The standard registry -/

theorem eq_ofGeneration {r : Registry} {g : Generation} {m : Migrator}
    (hm : m ∈ (ofRegistry r).migrators) (hg : m.supports g = true) :
    m = Migrator.ofGeneration g r ∧ g.isKnown = true := by
  obtain ⟨g', hg', rfl⟩ := List.mem_map.1 hm
  obtain rfl : g = g' := beq_iff_eq.1 hg
  exact ⟨rfl, (Generation.mem_supported_iff g).1 hg'⟩

/-- The migrator of a generation works by the analyzer and by the converter of the generation. -/
theorem execute_standard {g : Generation} (hg : g.isKnown = true) (mode : Mode) (s : Settings)
    (p : Project) (d : Disk) :
    (Migrator.ofGeneration g (.standard mode s)).execute p d =
      (⟨some (Section.ofResult ((Analyzer.ofGeneration mode g).analyze p d)),
        some (Section.ofResult (((Converter.ofGeneration s g).convert p).finish d).1)⟩,
        (((Converter.ofGeneration s g).convert p).finish d).2) := by
  cases g with
  | unknown => cases hg
  | ci2 => rfl
  | ci3 => rfl
  | ci4 => rfl

/-! ## The dispatcher behind a history -/

/-- A dispatcher over some migrators goes by its history. -/
structure GoesBy (ms : List Migrator) (h : History) (x : Dispatcher) : Prop where
  /-- A choice is answered with yes just if there is a migrator for the generation. -/
  supports : ∀ g, (x.choose g).1 = true ↔ ∃ m ∈ ms, m.supports g = true
  /-- Choices that miss and migrations leave the dispatcher as it is. -/
  keeps : ∀ d r, (x.answer d r).1 ≠ .chosen true → (x.answer d r).2.1 = x
  /-- The first migrator for the generation that was found last is chosen, and it migrates. -/
  chosen : ∀ g, h.lastFound? = some g → ∃ front m, IsFirst ms g front m ∧
    x.current = some front.length ∧ ∀ p, x.execute p = m.execute p
  /-- As long as no generation was found there is no choice, and nothing is done. -/
  unchosen : h.lastFound? = none → ∀ p d, x.current = none ∧ x.execute p d = (.empty, d)
  /-- With the standard registry, the analyzer and the converter of the generation are used. -/
  standard : ∀ mode s, ms = (ofRegistry (.standard mode s)).migrators →
    ∀ g, h.lastFound? = some g → ∀ p d, x.execute p d =
      (⟨some (Section.ofResult ((Analyzer.ofGeneration mode g).analyze p d)),
        some (Section.ofResult (((Converter.ofGeneration s g).convert p).finish d).1)⟩,
        (((Converter.ofGeneration s g).convert p).finish d).2)

theorem Remembers.goesBy (hx : Remembers ms h x) : GoesBy ms h x where
  supports g := hx.migrators ▸ x.fst_choose_eq_true_iff g
  keeps := answer_keeps x
  chosen g hlast := by
    obtain ⟨front, m, hm⟩ := exists_isFirst (hx.found g hlast)
    exact ⟨front, m, hm, execute_of_isFirst hx hlast hm⟩
  unchosen := execute_of_none hx
  standard mode s hms g hlast p d := by
    obtain ⟨front, m, hm⟩ := exists_isFirst (hx.found g hlast)
    have hmem : m ∈ (ofRegistry (.standard mode s)).migrators := by
      obtain ⟨behind, hcut⟩ := hm.cut
      rw [← hms, hcut]
      exact List.mem_append_right _ List.mem_cons_self
    obtain ⟨rfl, hknown⟩ := eq_ofGeneration hmem hm.supports
    rw [(execute_of_isFirst hx hlast hm).2 p, execute_standard hknown]

/-- After any requests, whatever disks they find, a dispatcher goes by the latest choice that found
a migrator. -/
theorem goesBy_serve (ms : List Migrator) (requests : List (Disk × Request)) :
    GoesBy ms (serve ms requests).1 (serve ms requests).2 :=
  (remembers_serve ms requests).goesBy

end Resettle.Dispatcher
