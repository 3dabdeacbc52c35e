import Mathlib.Order.OrderDual
import Resettle.Proofs.ConnectionBlock.Places

/-!
# Setting several entries in turn

A run sets the entries of a list one after the other.  What it does is measured in line feeds, in
leads and in characters: none of the three can go back, so a run that ends in the text it started
from has done nothing at any of its steps.
-/

namespace Resettle.ConnectionBlock

def step (indent body : List Char) (u : String × Scalar) : List Char :=
  setEntry indent body u.1.toList u.2.literal.toList

def steps (indent body : List Char) (us : List (String × Scalar)) : List Char :=
  us.foldl (step indent) body

/-- What an update can do: a line is added for its key, or the part of the value that ends before
the comment or the line feed is given up for the literal. -/
theorem step_cases (indent body : List Char) (u : String × Scalar) :
    (Text.search (entryAt? u.1.toList) body = none ∧
      step indent body u = body ++ '\n' :: entryLine indent u.1.toList u.2.literal.toList) ∨
    ∃ front lead old more, FirstAt u.1.toList body front lead (old ++ more) ∧ '\n' ∉ old ∧
      EndsLine more ∧ step indent body u = front ++ lead ++ (u.2.literal.toList ++ ',' :: more) := by
  cases hfound : Text.search (entryAt? u.1.toList) body with
  | none => exact .inl ⟨rfl, setEntry_of_search_none hfound _ _⟩
  | some found =>
      obtain ⟨front, lead, value, hfirst⟩ := exists_firstAt (hfound ▸ Option.some_ne_none found)
      obtain ⟨old, more, rfl, hold, hmore, hset⟩ := hfirst.exists_old
      exact .inr ⟨front, lead, old, more, hfirst, fun hfeed => notMem_lineOf _ (hold.subset hfeed),
        hmore, hset _ _⟩

theorem setEntries_eq_steps (body : List Char) (us : List (String × Scalar)) :
    setEntries body us = steps (entryIndent body) body us :=
  rfl

/-- Something holds of every update of a run and the body it finds. -/
def Along (P : List Char → String × Scalar → Prop) (indent : List Char) :
    List Char → List (String × Scalar) → Prop
  | _, [] => True
  | body, u :: us => P body u ∧ Along P indent (step indent body u) us

variable {P Q : List Char → String × Scalar → Prop} {indent body : List Char}
  {us : List (String × Scalar)}

theorem Along.imp (h : Along P indent body us)
    (himp : ∀ body, ∀ u ∈ us, P body u → Q body u) : Along Q indent body us := by
  induction us generalizing body with
  | nil => trivial
  | cons u us ih =>
      exact ⟨himp body u List.mem_cons_self h.1,
        ih h.2 fun body u hu => himp body u (List.mem_cons_of_mem _ hu)⟩

theorem Along.and (hp : Along P indent body us) (hq : Along Q indent body us) :
    Along (fun body u => P body u ∧ Q body u) indent body us := by
  induction us generalizing body with
  | nil => trivial
  | cons u us ih => exact ⟨⟨hp.1, hq.1⟩, ih hp.2 hq.2⟩

theorem along_of_forall (h : ∀ body, ∀ u ∈ us, P body u) : Along P indent body us := by
  induction us generalizing body with
  | nil => trivial
  | cons u us ih =>
      exact ⟨h body u List.mem_cons_self, ih fun body u hu => h body u (List.mem_cons_of_mem _ hu)⟩

/-- A measure that no step lowers is the same at the end of a run only if every step keeps it. -/
theorem Along.of_measure {α : Type} [PartialOrder α] (m : List Char → α)
    (hp : Along P indent body us)
    (hstep : ∀ body, ∀ u ∈ us, P body u →
      m body ≤ m (step indent body u) ∧ (m (step indent body u) = m body → Q body u)) :
    m body ≤ m (steps indent body us) ∧
      (m (steps indent body us) = m body → Along Q indent body us) := by
  induction us generalizing body with
  | nil => exact ⟨le_refl _, fun _ => trivial⟩
  | cons u us ih =>
      obtain ⟨hle, heq⟩ := hstep body u List.mem_cons_self hp.1
      obtain ⟨hle', heq'⟩ := ih hp.2 fun body u hu => hstep body u (List.mem_cons_of_mem _ hu)
      refine ⟨le_trans hle hle', fun hsame => ?_⟩
      change m (steps indent (step indent body u) us) = m body at hsame
      have hmid : m (step indent body u) = m body := le_antisymm (hsame ▸ hle') hle
      exact ⟨heq hmid, heq' (hsame.trans hmid.symm)⟩

theorem Along.forall_mem {R : String × Scalar → Prop} (h : Along (fun _ u => R u) indent body us) :
    ∀ u ∈ us, R u := by
  induction us generalizing body with
  | nil => simp
  | cons v us ih => exact List.forall_mem_cons.2 ⟨h.1, ih h.2⟩

theorem steps_eq_of_forall (h : ∀ u ∈ us, step indent body u = body) :
    steps indent body us = body := by
  induction us with
  | nil => rfl
  | cons v us ih =>
      obtain ⟨hv, hrest⟩ := List.forall_mem_cons.1 h
      change steps indent (step indent body v) us = body
      rw [hv]
      exact ih hrest

/-! ## Line feeds -/

/-- No update takes a line feed away, and one that adds none finds its entry and has a literal on
one line. -/
theorem count_feed_step (indent body : List Char) (u : String × Scalar) :
    body.count '\n' ≤ (step indent body u).count '\n' ∧
      ((step indent body u).count '\n' = body.count '\n' →
        Text.search (entryAt? u.1.toList) body ≠ none ∧ '\n' ∉ u.2.literal.toList) := by
  rcases step_cases indent body u with
    ⟨-, hstep⟩ | ⟨front, lead, old, more, hfirst, hold, -, hstep⟩
  · have hcount := congrArg (List.count '\n') hstep
    rw [List.count_append, List.count_cons_self] at hcount
    exact ⟨by omega, fun hsame => by omega⟩
  · have hbody := congrArg (List.count '\n') hfirst.cut
    have hcount := congrArg (List.count '\n') hstep
    simp only [List.count_append, List.count_cons_of_ne (by decide : ',' ≠ '\n'),
      List.count_eq_zero_of_not_mem hold] at hbody hcount
    refine ⟨by omega, fun hsame => ⟨?_, ?_⟩⟩
    · obtain ⟨_, _, -, hfound, -⟩ := hfirst.setEntry
      rw [hfound]
      exact Option.some_ne_none _
    · rw [← List.count_eq_zero]
      omega

/-! ## Leads -/

/-- No lead of one of the keys stands in a literal. -/
def LeadFree (us : List (String × Scalar)) : Prop :=
  ∀ u ∈ us, ∀ v ∈ us, leadsIn v.1.toList u.2.literal.toList [] = 0

instance (us : List (String × Scalar)) : Decidable (LeadFree us) :=
  inferInstanceAs (Decidable (∀ u ∈ us, ∀ v ∈ us, _ = 0))

theorem LeadFree.tail {u : String × Scalar} (h : LeadFree (u :: us)) : LeadFree us :=
  fun v hv w hw => h v (List.mem_cons_of_mem _ hv) w (List.mem_cons_of_mem _ hw)

theorem head_ne_of_nodup {u : String × Scalar} (h : ((u :: us).map Prod.fst).Nodup) :
    ∀ v ∈ us, u.1.toList ≠ v.1.toList := by
  intro v hv heq
  refine (List.nodup_cons.1 h).1 ?_
  rw [String.toList_inj.1 heq]
  exact List.mem_map_of_mem hv

/-- Keys that are words and occur once, and literals without leads. -/
structure Quiet (us : List (String × Scalar)) : Prop where
  words : ∀ u ∈ us, IsWord u.1.toList
  distinct : (us.map Prod.fst).Nodup
  literals : LeadFree us

/-- In the value that an update gives up no lead of the key stands. -/
def Spares (indent key body : List Char) (u : String × Scalar) : Prop :=
  ∀ front lead old more, FirstAt u.1.toList body front lead (old ++ more) → '\n' ∉ old →
    step indent body u = front ++ lead ++ (u.2.literal.toList ++ ',' :: more) →
    leadsIn key old more = 0

/-- An update that finds its entry adds no lead, and takes none away only if it spares them. -/
theorem leadsIn_step {key : List Char} {u : String × Scalar} (hkey : IsWord key)
    (hword : IsWord u.1.toList) (hliteral : leadsIn key u.2.literal.toList [] = 0)
    (hfound : Text.search (entryAt? u.1.toList) body ≠ none) :
    leadsIn key (step indent body u) [] ≤ leadsIn key body [] ∧
      (leadsIn key (step indent body u) [] = leadsIn key body [] → Spares indent key body u) := by
  constructor
  · rcases step_cases indent body u with
      ⟨hnone, -⟩ | ⟨front, lead, old, more, hfirst, -, -, hstep⟩
    · exact absurd hnone hfound
    · have hcount := hfirst.leadsIn_set hkey hword hliteral
      rw [hstep]
      omega
  · intro hsame front lead old more hfirst _ hstep
    have hcount := hfirst.leadsIn_set hkey hword hliteral
    rw [← hstep] at hcount
    omega

theorem startsDark_scalar (v : Scalar) : StartsDark v.literal.toList := by
  obtain ⟨d, rest, hcut, hd⟩ := v.exists_head_literal
  intro c hc
  rw [hcut] at hc
  obtain rfl : d = c := Option.some.inj hc
  rcases hd with rfl | hd
  · decide
  · exact isBlank_eq_false_of_isPlainChar hd

theorem written_step {u : String × Scalar} (hindent : ∀ c ∈ indent, Text.isBlank c = true)
    (hword : IsWord u.1.toList) :
    Written u.1.toList u.2.literal.toList (step indent body u) := by
  rcases step_cases indent body u with
    ⟨hnone, hstep⟩ | ⟨front, lead, old, more, hfirst, -, hmore, hstep⟩
  · rw [hstep]
    exact written_append hword hindent (startsDark_scalar _) (leadsIn_of_search_none hnone)
  · rw [hstep]
    exact hfirst.written hword (startsDark_scalar _) hmore

/-- An entry stays written when an update of another key spares its lead. -/
theorem Written.step {key literal : List Char} {u : String × Scalar}
    (hw : Written key literal body) (hkey : IsWord key) (hword : IsWord u.1.toList)
    (hne : key ≠ u.1.toList) (hliteral : leadsIn u.1.toList literal [] = 0)
    (hliteral' : leadsIn key u.2.literal.toList [] = 0) (hspares : Spares indent key body u) :
    Written key literal (step indent body u) := by
  rcases step_cases indent body u with
    ⟨-, hstep⟩ | ⟨front, lead, old, more, hfirst, hold, -, hstep⟩
  · rw [hstep]
    exact hw.append hkey _
  · have hlead := hspares front lead old more hfirst hold hstep
    rw [hstep]
    exact hw.set hfirst hkey hword hne hlead hliteral hliteral'

/-- A written entry outlasts a run of updates of other keys that spare its lead. -/
theorem Written.steps {key literal : List Char} (hw : Written key literal body)
    (hkey : IsWord key) (hwords : ∀ u ∈ us, IsWord u.1.toList)
    (hne : ∀ u ∈ us, key ≠ u.1.toList)
    (hliterals : ∀ u ∈ us, leadsIn u.1.toList literal [] = 0 ∧ leadsIn key u.2.literal.toList [] = 0)
    (hspares : Along (Spares indent key) indent body us) :
    Written key literal (steps indent body us) := by
  induction us generalizing body with
  | nil => exact hw
  | cons u us ih =>
      obtain ⟨hword, hwords⟩ := List.forall_mem_cons.1 hwords
      obtain ⟨hu, hne⟩ := List.forall_mem_cons.1 hne
      obtain ⟨hliteral, hliterals⟩ := List.forall_mem_cons.1 hliterals
      exact ih (hw.step hkey hword hu hliteral.1 hliteral.2 hspares.1) hwords hne hliterals hspares.2

namespace Quiet

variable {u : String × Scalar}

theorem tail (h : Quiet (u :: us)) : Quiet us where
  words := fun v hv => h.words v (List.mem_cons_of_mem _ hv)
  distinct := (List.nodup_cons.1 h.distinct).2
  literals := h.literals.tail

/-- After a run that spares the leads of its keys, every entry is written. -/
theorem written_of_mem (h : Quiet us) (hindent : ∀ c ∈ indent, Text.isBlank c = true)
    (hspares : ∀ v ∈ us, Along (Spares indent v.1.toList) indent body us) :
    ∀ v ∈ us, Written v.1.toList v.2.literal.toList (steps indent body us) := by
  induction us generalizing body with
  | nil => simp
  | cons u us ih =>
      have hu : u ∈ u :: us := List.mem_cons_self
      intro v hv
      rcases List.mem_cons.1 hv with rfl | hv
      · refine (written_step hindent (h.words v hu)).steps (h.words v hu) h.tail.words
          (head_ne_of_nodup h.distinct) ?_ (hspares v hu).2
        intro w hw
        have hmem := List.mem_cons_of_mem v hw
        exact ⟨h.literals v hu w hmem, h.literals w hmem v hu⟩
      · exact ih h.tail (fun w hw => (hspares w (List.mem_cons_of_mem _ hw)).2) v hv

/-- Where all entries are written, a run that spares the leads of its keys finds each of them
written. -/
theorem along_written (h : Quiet us)
    (hspares : ∀ v ∈ us, Along (Spares indent v.1.toList) indent body us)
    (hw : ∀ v ∈ us, Written v.1.toList v.2.literal.toList body) :
    Along (fun body u => Written u.1.toList u.2.literal.toList body) indent body us := by
  induction us generalizing body with
  | nil => trivial
  | cons u us ih =>
      have hu : u ∈ u :: us := List.mem_cons_self
      refine ⟨hw u hu, ih h.tail (fun v hv => (hspares v (List.mem_cons_of_mem _ hv)).2) ?_⟩
      intro v hv
      have hmem := List.mem_cons_of_mem u hv
      exact (hw v hmem).step (h.words v hmem) (h.words u hu)
        (head_ne_of_nodup h.distinct v hv).symm (h.literals v hmem u hu)
        (h.literals u hu v hmem) (hspares v hmem).1

end Quiet

/-! ## Runs that change nothing -/

/-- An entry that stands as it would be written, on one line and without a comment in it. -/
structure Settled (body : List Char) (u : String × Scalar) : Prop where
  written : Written u.1.toList u.2.literal.toList body
  oneLine : '\n' ∉ u.2.literal.toList
  uncommented : hasComment u.2.literal.toList = false

theorem Settled.step_eq {u : String × Scalar} (h : Settled body u) (indent : List Char) :
    step indent body u = body := by
  rcases h.written.again h.oneLine indent with ⟨-, hstep⟩ | ⟨hcomment, -⟩
  · exact hstep
  · rw [h.uncommented] at hcomment
    cases hcomment

/-- A run of quiet updates changes nothing just if all of its entries are settled. -/
theorem Quiet.steps_eq_iff (h : Quiet us) (hindent : ∀ c ∈ indent, Text.isBlank c = true) :
    steps indent body us = body ↔ ∀ u ∈ us, Settled body u := by
  refine ⟨fun hsame => ?_, fun hsettled => steps_eq_of_forall fun u hu => (hsettled u hu).step_eq _⟩
  have hfeeds : Along (fun body u => Text.search (entryAt? u.1.toList) body ≠ none ∧
      '\n' ∉ u.2.literal.toList) indent body us :=
    (Along.of_measure (P := fun _ _ => True) (List.count '\n')
      (along_of_forall fun _ _ _ => trivial) fun body u _ _ => count_feed_step indent body u).2
      (congrArg _ hsame)
  have hspares : ∀ v ∈ us, Along (Spares indent v.1.toList) indent body us := by
    intro v hv
    refine (hfeeds.of_measure (fun body => OrderDual.toDual (leadsIn v.1.toList body []))
      fun body u hu hfound => ?_).2 (by rw [hsame])
    exact leadsIn_step (h.words v hv) (h.words u hu) (h.literals u hu v hv) hfound.1
  have hwritten : ∀ v ∈ us, Written v.1.toList v.2.literal.toList body := by
    have := h.written_of_mem hindent hspares
    rwa [hsame] at this
  have huncommented : Along (fun _ u => hasComment u.2.literal.toList = false) indent body us := by
    refine (((h.along_written hspares hwritten).and hfeeds).of_measure List.length
      fun body u _ hu => ?_).2 (congrArg _ hsame)
    rcases hu.1.again hu.2.2 indent with ⟨hclean, hstep⟩ | ⟨-, hlonger⟩
    · exact ⟨le_of_eq (congrArg _ hstep.symm), fun _ => hclean⟩
    · exact ⟨le_of_lt hlonger, fun heq => absurd heq (ne_of_gt hlonger)⟩
  have honeLine : ∀ u ∈ us, '\n' ∉ u.2.literal.toList :=
    (hfeeds.imp fun _ _ _ hu => hu.2).forall_mem
  exact fun u hu => ⟨hwritten u hu, honeLine u hu, huncommented.forall_mem u hu⟩

end Resettle.ConnectionBlock
