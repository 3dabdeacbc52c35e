import Mathlib.Data.List.Infix
import Resettle.Path
import Resettle.Proofs.Text.Pieces

/-!
# Where paths lead

A path is resolved segment by segment without a look at the disk: an empty segment and a dot stay
where they are, two dots lead one level up, and a name leads one level down.  Following a relative
path from some place means to climb as far as the path climbs and then to go down its names.
-/

namespace Resettle.Path

/-- Where a path leads: from the root or not, so many levels up from there, and then down through
some names. -/
structure Resolved where
  absolute : Bool
  up : Nat
  names : List String
deriving DecidableEq, Repr

namespace Resolved

def origin : Resolved :=
  ⟨false, 0, []⟩

/-- The place that one more segment leads to.  The root is above itself. -/
def follow (r : Resolved) (segment : String) : Resolved :=
  if segment = "" ∨ segment = "." then r
  else if segment = ".." then
    if r.names ≠ [] then { r with names := r.names.dropLast }
    else if r.absolute then r
    else { r with up := r.up + 1 }
  else { r with names := r.names ++ [segment] }

/-- So many levels up. -/
def climb : Resolved → Nat → Resolved
  | r, 0 => r
  | r, k + 1 => (r.climb k).follow ".."

def descend (r : Resolved) (names : List String) : Resolved :=
  { r with names := r.names ++ names }

@[simp] theorem climb_zero (r : Resolved) : r.climb 0 = r :=
  rfl

theorem follow_descend (r : Resolved) {names : List String} (h : names ≠ []) :
    (r.descend names).follow ".." = r.descend names.dropLast := by
  have hne : r.names ++ names ≠ [] := fun hnil => h (List.append_eq_nil_iff.1 hnil).2
  simp [follow, descend, h, List.dropLast_append_of_ne_nil]

theorem absolute_follow (r : Resolved) (segment : String) :
    (r.follow segment).absolute = r.absolute := by
  unfold follow
  split
  · rfl
  · split
    · split
      · rfl
      · split <;> rfl
    · rfl

theorem absolute_foldl_follow (r : Resolved) (segments : List String) :
    (segments.foldl follow r).absolute = r.absolute := by
  induction segments generalizing r with
  | nil => rfl
  | cons s segments ih => exact (ih (r.follow s)).trans (absolute_follow r s)

/-- From a place one name below the working directory it takes one level to get back there. -/
theorem climb_single (name : String) (k : Nat) :
    (⟨false, 0, [name]⟩ : Resolved).climb (k + 1) = ⟨false, k, []⟩ := by
  induction k with
  | zero => rfl
  | succ k ih => rw [climb, ih, follow, if_neg (by decide), if_pos rfl]; rfl

/-- A relative path climbs from any place as far as it climbs from its origin, and then goes down
the same names. -/
theorem foldl_follow (r : Resolved) (segments : List String) :
    segments.foldl follow r =
      (r.climb (segments.foldl follow origin).up).descend (segments.foldl follow origin).names := by
  induction segments using List.reverseRecOn with
  | nil => simp [origin, descend]
  | append_singleton segments s ih =>
      rw [List.foldl_append, List.foldl_append, ih]
      have habs := absolute_foldl_follow origin segments
      generalize segments.foldl follow origin = o at habs
      simp only [List.foldl_cons, List.foldl_nil]
      by_cases hstay : s = "" ∨ s = "."
      · simp only [follow, hstay, if_true]
      · by_cases hup : s = ".."
        · subst hup
          by_cases hnames : o.names = []
          · simp [follow, hnames, habs, origin, descend, climb]
          · rw [follow_descend _ hnames]
            simp [follow, hnames]
        · simp [follow, hstay, hup, descend]

end Resolved

/-- Where a path leads, as its segments tell. -/
def resolve (p : Path) : Resolved :=
  p.segments.foldl Resolved.follow ⟨p.isAbsolute, 0, []⟩

theorem absolute_resolve (p : Path) : p.resolve.absolute = p.isAbsolute :=
  Resolved.absolute_foldl_follow _ _

/-- A path leads strictly below where another leads. -/
structure IsBelow (p q : Path) : Prop where
  absolute : p.resolve.absolute = q.resolve.absolute
  up : p.resolve.up = q.resolve.up
  under : q.resolve.names <+: p.resolve.names
  strict : p.resolve.names ≠ q.resolve.names

instance (p q : Path) : Decidable (IsBelow p q) :=
  decidable_of_iff (p.resolve.absolute = q.resolve.absolute ∧ p.resolve.up = q.resolve.up ∧
      q.resolve.names <+: p.resolve.names ∧ p.resolve.names ≠ q.resolve.names)
    ⟨fun ⟨ha, hu, hn, hs⟩ => ⟨ha, hu, hn, hs⟩, fun ⟨ha, hu, hn, hs⟩ => ⟨ha, hu, hn, hs⟩⟩

theorem IsBelow.trans {p q r : Path} (hpq : p.IsBelow q) (hqr : q.IsBelow r) : p.IsBelow r where
  absolute := hpq.absolute.trans hqr.absolute
  up := hpq.up.trans hqr.up
  under := hqr.under.trans hpq.under
  strict := fun hsame =>
    hqr.strict (hpq.under.eq_of_length_le (hsame ▸ hqr.under.length_le)|>.trans hsame)

/-! ## Joined paths -/

/-- Whether a name that is joined to any path leads down from it: it is relative, never ends up
above where it starts, and does not end up there either. -/
def StaysInside (name : String) : Prop :=
  (⟨name⟩ : Path).isAbsolute = false ∧ (⟨name⟩ : Path).resolve.up = 0 ∧
    (⟨name⟩ : Path).resolve.names ≠ []

instance (name : String) : Decidable (StaysInside name) :=
  inferInstanceAs (Decidable (_ ∧ _ ∧ _))

/-- A name behind a separator is followed from where the text up to the separator leads. -/
theorem resolve_slash (front name : List Char) :
    (⟨String.ofList (front ++ '/' :: name)⟩ : Path).resolve =
      ((Text.split '/' name).map String.ofList).foldl Resolved.follow
        (⟨String.ofList (front ++ ['/'])⟩ : Path).resolve := by
  have habsolute : (⟨String.ofList (front ++ '/' :: name)⟩ : Path).isAbsolute =
      (⟨String.ofList (front ++ ['/'])⟩ : Path).isAbsolute := by
    cases front <;> simp [isAbsolute]
  unfold resolve segments
  rw [habsolute]
  simp only [String.toList_ofList, Text.split_append_cons, List.map_append, List.foldl_append]
  rfl

theorem resolve_trailing {base : Path} (h : base.text ≠ "") :
    (⟨String.ofList (base.text.toList ++ ['/'])⟩ : Path).resolve = base.resolve := by
  have hne : base.text.toList ≠ [] := fun hnil => h (String.toList_eq_nil_iff.1 hnil)
  unfold resolve segments isAbsolute
  simp only [String.toList_ofList, Text.split_append_cons, List.map_append, List.foldl_append,
    List.head?_append_of_ne_nil _ hne]
  rfl

/-- A relative name is followed from where the path leads that it is joined to. -/
theorem resolve_join (base : Path) {name : String} (h : (⟨name⟩ : Path).isAbsolute = false) :
    (base.join name).resolve = (⟨name⟩ : Path).segments.foldl Resolved.follow base.resolve := by
  have hhead : name.toList.head? ≠ some '/' := by simpa [isAbsolute] using h
  unfold join
  rw [if_neg hhead]
  obtain ⟨text⟩ := base
  by_cases hempty : text = ""
  · subst hempty
    rw [if_pos (.inl rfl), String.empty_append, resolve, h]
    rfl
  · by_cases hslash : text.toList.getLast? = some '/'
    · obtain ⟨front, hfront⟩ := List.getLast?_eq_some_iff.1 hslash
      have hjoined : text ++ name = String.ofList (front ++ '/' :: name.toList) := by
        rw [← String.toList_inj]
        simp [hfront]
      rw [if_pos (.inr hslash), hjoined, resolve_slash, ← hfront, String.ofList_toList]
      rfl
    · have hjoined : text ++ "/" ++ name = String.ofList (text.toList ++ '/' :: name.toList) := by
        rw [← String.toList_inj]
        simp
      have hbase := @resolve_trailing ⟨text⟩ hempty
      rw [if_neg (by simp [hempty, hslash]), hjoined, resolve_slash, hbase]
      rfl

/-- A relative name climbs from where the path leads that it is joined to, and goes down from
there. -/
theorem resolve_join_eq_descend (base : Path) {name : String}
    (h : (⟨name⟩ : Path).isAbsolute = false) :
    (base.join name).resolve = (base.resolve.climb (⟨name⟩ : Path).resolve.up).descend
      (⟨name⟩ : Path).resolve.names := by
  have hname : (⟨name⟩ : Path).resolve =
      (⟨name⟩ : Path).segments.foldl Resolved.follow .origin := by
    rw [resolve, h]
    rfl
  rw [resolve_join base h, Resolved.foldl_follow, ← hname]

/-- A name that stays inside leads strictly below every path that it is joined to. -/
theorem StaysInside.isBelow_join {name : String} (h : StaysInside name) (base : Path) :
    (base.join name).IsBelow base := by
  obtain ⟨hrelative, hup, hnames⟩ := h
  have hjoin := resolve_join_eq_descend base hrelative
  rw [hup, Resolved.climb_zero] at hjoin
  constructor
  · rw [hjoin]
    rfl
  · rw [hjoin]
    rfl
  · rw [hjoin]
    exact List.prefix_append _ _
  · rw [hjoin]
    exact fun hsame => hnames (by simpa [Resolved.descend] using hsame)

end Resettle.Path
