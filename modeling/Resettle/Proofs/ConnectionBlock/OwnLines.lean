import Mathlib.Data.List.Infix
import Resettle.Proofs.ConnectionBlock.Runs

/-!
# Entries on lines of their own

In a body whose entries all have values, with a line feed between each and the next, no update
gives up the entry of another.  A run keeps such a body as it is, and leaves every entry as it was
written.
-/

namespace Resettle.ConnectionBlock

variable {key other : List Char}

/-- Every lead has a value, and a line feed stands in front of the next lead. -/
def OwnLines (us : List (String × Scalar)) (body : List Char) : Prop :=
  ∀ u ∈ us, ∀ front first value, body = front ++ first → afterArrow? u.1.toList first = some value →
    value ≠ [] ∧ ∀ v ∈ us, ∀ mid second, value = mid ++ second →
      (afterArrow? v.1.toList second).isSome = true → '\n' ∈ mid

instance (us : List (String × Scalar)) (body : List Char) : Decidable (OwnLines us body) :=
  decidable_of_iff (∀ u ∈ us, ∀ first ∈ body.tails, ∀ value ∈ afterArrow? u.1.toList first,
      value ≠ [] ∧ ∀ v ∈ us, ∀ second ∈ value.tails,
        (afterArrow? v.1.toList second).isSome = true → '\n' ∈ inFrontOf value second) <| by
    constructor
    · rintro h u hu front first value rfl hvalue
      obtain ⟨hne, hnext⟩ := h u hu first ((List.mem_tails _ _).2 (List.suffix_append _ _)) value hvalue
      refine ⟨hne, ?_⟩
      rintro v hv mid second rfl hsecond
      have hfeed := hnext v hv second ((List.mem_tails _ _).2 (List.suffix_append _ _)) hsecond
      rwa [inFrontOf_append] at hfeed
    · intro h u hu first hfirst value hvalue
      obtain ⟨front, rfl⟩ := (List.mem_tails _ _).1 hfirst
      obtain ⟨hne, hnext⟩ := h u hu front first value rfl hvalue
      refine ⟨hne, fun v hv second hsecond hlead => ?_⟩
      obtain ⟨mid, rfl⟩ := (List.mem_tails _ _).1 hsecond
      rw [inFrontOf_append]
      exact hnext v hv mid second rfl hlead

theorem OwnLines.spares {us : List (String × Scalar)} {indent body : List Char}
    (h : OwnLines us body) {u v : String × Scalar} (hu : u ∈ us) (hv : v ∈ us) :
    Spares indent v.1.toList body u := by
  intro front lead old more hfirst hold _
  rw [leadsIn_eq_zero_iff]
  rintro c ys ⟨mid, rfl⟩
  rw [Bool.eq_false_iff]
  intro hlead
  have harrow : afterArrow? u.1.toList (lead ++ (mid ++ c :: ys ++ more)) =
      some (mid ++ c :: ys ++ more) :=
    afterArrow?_eq_some_iff.2 ⟨lead, hfirst.isLead, rfl, hfirst.dark⟩
  have hfeed := (h u hu front _ _ hfirst.cut harrow).2 v hv mid (c :: (ys ++ more)) (by simp) hlead
  exact hold (List.mem_append_left _ hfeed)

/-! ## Steps -/

variable {us : List (String × Scalar)} {indent body : List Char} {u : String × Scalar}

/-- Setting an entry that stands on a line of its own keeps all entries on theirs. -/
theorem OwnLines.set {front lead old more : List Char} (h : OwnLines us body) (hquiet : Quiet us)
    (hu : u ∈ us) (hfirst : FirstAt u.1.toList body front lead (old ++ more)) (hold : '\n' ∉ old) :
    OwnLines us (front ++ lead ++ (u.2.literal.toList ++ ',' :: more)) := by
  have hword := hquiet.words u hu
  intro w hw front₁ first₁ value₁ hcut hfirst₁
  obtain ⟨lead₁, hlead₁, rfl, hdark₁⟩ := afterArrow?_eq_some_iff.1 hfirst₁
  have hlit := hquiet.literals u hu w hw
  rw [List.append_assoc] at hcut
  rcases lead_order hword (hquiet.words w hw) hfirst.isLead hlead₁ hcut with
    ⟨x, rfl, rfl⟩ | rfl | ⟨x, rfl, hx⟩
  · -- The first of the two leads stands in front of the entry that was set.
    have hread : ∀ rest, afterArrow? w.1.toList (lead₁ ++ (x ++ (lead ++ rest))) =
        some (x ++ (lead ++ rest)) := fun rest =>
      afterArrow?_eq_some_iff.2 ⟨lead₁, hlead₁, rfl,
        startsDark_append_lead hfirst.isLead hdark₁ rest⟩
    have hold₁ := (h w hw front₁ _ _ (by rw [hfirst.cut]; simp) (hread (old ++ more))).2
    refine ⟨?_, fun v hv mid second hmid hsecond => ?_⟩
    · obtain ⟨q, _, _, _, _, _, _, _, rfl⟩ := hfirst.isLead
      simp
    · obtain ⟨lead₂, value₂, hlead₂, rfl, hdark₂⟩ := isSome_iff_exists_lead.1 hsecond
      have hx : '\n' ∈ x := hold₁ u hu x _ rfl (isSome_of_isLead hfirst.isLead _)
      rcases lead_order hword (hquiet.words v hv) hfirst.isLead hlead₂ hmid with
        ⟨y, rfl, -⟩ | rfl | ⟨y, rfl, -⟩
      · exact hold₁ v hv mid (lead₂ ++ (y ++ (lead ++ (old ++ more)))) (by simp)
          (isSome_of_isLead hlead₂ _)
      · exact hx
      · exact List.mem_append_left _ hx
  · -- The first of the two leads is the one of the entry that was set.
    have hsame := key_unique_of_isLead hword (hquiet.words w hw) hfirst.isLead hlead₁
      (List.append_cancel_left hcut)
    rw [← hsame] at hlead₁
    obtain ⟨rfl, rfl⟩ := lead_unique hfirst.isLead hlead₁
      (startsDark_literal (startsDark_scalar u.2) more) hdark₁ (List.append_cancel_left hcut)
    refine ⟨by simp, fun v hv mid second hmid hsecond => ?_⟩
    obtain ⟨lead₂, value₂, hlead₂, rfl, hdark₂⟩ := isSome_iff_exists_lead.1 hsecond
    obtain ⟨y, rfl, rfl⟩ := lead_behind_comma (hquiet.words v hv) hlead₂
      (hquiet.literals u hu v hv) hmid
    have hread := afterArrow?_eq_some_iff.2 ⟨lead, hfirst.isLead, rfl, hfirst.dark⟩
    have hfeed := (h u hu front _ _ hfirst.cut hread).2 v hv (old ++ y) _ (by simp) hsecond
    rcases List.mem_append.1 hfeed with hfeed | hfeed
    · exact absurd hfeed hold
    · simp [hfeed]
  · -- Both leads stand behind the entry that was set.
    obtain ⟨y, rfl, rfl⟩ := lead_behind_comma (hquiet.words w hw) hlead₁ hlit hx
    exact h w hw (front ++ lead ++ old ++ y) _ _ (by rw [hfirst.cut]; simp) hfirst₁

theorem lead_of_entryLine {front first : List Char} {v : String × Scalar} (hquiet : Quiet us)
    (hu : u ∈ us) (hv : v ∈ us) (hindent : ∀ c ∈ indent, Text.isBlank c = true)
    (hfirst : (afterArrow? v.1.toList first).isSome = true)
    (h : '\n' :: entryLine indent u.1.toList u.2.literal.toList = front ++ first) :
    front = '\n' :: indent ∧ v.1 = u.1 ∧
      first = newLead u.1.toList ++ (u.2.literal.toList ++ [',']) := by
  obtain ⟨lead, value, hlead, rfl, -⟩ := isSome_iff_exists_lead.1 hfirst
  have hnew := isLead_newLead u.1.toList
  rw [entryLine_eq, ← List.cons_append] at h
  rcases lead_order (hquiet.words u hu) (hquiet.words v hv) hnew hlead h with
    ⟨mid, hfront, -⟩ | rfl | ⟨mid, rfl, hmid⟩
  · obtain ⟨q, _, _, _, hq, _, _, _, rfl⟩ := hlead
    have hdark := hq.isBlank_eq_false
    have hmem : q ∈ '\n' :: indent := hfront ▸ by simp
    rcases List.mem_cons.1 hmem with rfl | hmem
    · exact absurd hdark (by decide)
    · rw [hindent q hmem] at hdark
      cases hdark
  · have hcut := List.append_cancel_left h
    have hsame := key_unique_of_isLead (hquiet.words u hu) (hquiet.words v hv) hnew hlead hcut
    exact ⟨rfl, (String.toList_inj.1 hsame).symm, hcut.symm⟩
  · obtain ⟨rest, -, hrest⟩ := lead_behind_comma (hquiet.words v hv) hlead
      (hquiet.literals u hu v hv) hmid
    exact absurd (List.append_eq_nil_iff.1 hrest.symm).2 (hlead.ne_nil value)

/-- A line that is added keeps all entries on lines of their own. -/
theorem OwnLines.append (h : OwnLines us body) (hquiet : Quiet us) (hu : u ∈ us)
    (hindent : ∀ c ∈ indent, Text.isBlank c = true) :
    OwnLines us (body ++ '\n' :: entryLine indent u.1.toList u.2.literal.toList) := by
  intro w hw front first value hcut hfirst
  have hsome : (afterArrow? w.1.toList first).isSome = true := by rw [hfirst]; rfl
  rcases List.append_eq_append_iff.1 hcut with ⟨extra, rfl, hover⟩ | ⟨extra, rfl, rfl⟩
  · -- The lead is the one of the new line, and its value has none.
    obtain ⟨-, hsame, rfl⟩ := lead_of_entryLine hquiet hu hw hindent hsome hover
    have hread := afterArrow?_eq_some_iff.2 ⟨newLead u.1.toList, isLead_newLead _, rfl,
      startsDark_literal (startsDark_scalar u.2) []⟩
    rw [hsame, hread] at hfirst
    obtain rfl := Option.some.inj hfirst
    refine ⟨by simp, fun v hv mid second hmid hsecond => ?_⟩
    obtain ⟨lead, value, hlead, rfl, -⟩ := isSome_iff_exists_lead.1 hsecond
    obtain ⟨rest, -, hrest⟩ := lead_behind_comma (hquiet.words v hv) hlead
      (hquiet.literals u hu v hv) hmid
    exact absurd (List.append_eq_nil_iff.1 hrest.symm).2 (hlead.ne_nil value)
  · -- The lead stands in the text that is there, and so does a lead behind it, or the line between.
    rw [entryLine, isSome_afterArrow?_line ((hquiet.words w hw).notMem (by decide)) hindent
      (by decide) (by decide),
      Option.isSome_iff_exists] at hsome
    obtain ⟨value₀, hvalue⟩ := hsome
    obtain ⟨hne, hnext⟩ := h w hw front extra value₀ rfl hvalue
    rw [afterArrow?_append hvalue hne] at hfirst
    obtain rfl := Option.some.inj hfirst
    refine ⟨by simp, fun v hv mid second hmid hsecond => ?_⟩
    rcases List.append_eq_append_iff.1 hmid with ⟨more, rfl, hmore⟩ | ⟨more, rfl, rfl⟩
    · obtain ⟨rfl, -⟩ := lead_of_entryLine hquiet hu hv hindent hsecond hmore
      simp
    · rw [entryLine, isSome_afterArrow?_line ((hquiet.words v hv).notMem (by decide)) hindent
        (by decide) (by decide)] at hsecond
      exact hnext v hv mid more rfl hsecond

theorem OwnLines.step (h : OwnLines us body) (hquiet : Quiet us) (hu : u ∈ us)
    (hindent : ∀ c ∈ indent, Text.isBlank c = true) :
    OwnLines us (ConnectionBlock.step indent body u) := by
  rcases step_cases indent body u with
    ⟨-, hstep⟩ | ⟨front, lead, old, more, hfirst, hold, -, hstep⟩
  · rw [hstep]
    exact h.append hquiet hu hindent
  · rw [hstep]
    exact h.set hquiet hu hfirst hold

/-! ## Runs -/

/-- Where entries stand on lines of their own, a run of quiet updates leaves each of them as it was
written. -/
theorem OwnLines.written (h : OwnLines us body) (hquiet : Quiet us)
    (hindent : ∀ c ∈ indent, Text.isBlank c = true) :
    ∀ v ∈ us, Written v.1.toList v.2.literal.toList (steps indent body us) := by
  have hrun : ∀ vs body, (∀ v ∈ vs, v ∈ us) → OwnLines us body →
      Along (fun body _ => OwnLines us body) indent body vs := by
    intro vs
    induction vs with
    | nil => exact fun _ _ _ => trivial
    | cons v vs ih =>
        intro body hvs hbody
        obtain ⟨hv, hvs⟩ := List.forall_mem_cons.1 hvs
        exact ⟨hbody, ih _ hvs (hbody.step hquiet hv hindent)⟩
  refine hquiet.written_of_mem hindent fun v hv => ?_
  exact (hrun us body (fun _ hu => hu) h).imp fun body u hu hbody => hbody.spares hu hv

end Resettle.ConnectionBlock
