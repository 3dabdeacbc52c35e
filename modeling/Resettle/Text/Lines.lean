/-!
# Lines of a text

Two readings of "the lines of a text".  `pieces` cuts at every line feed and keeps what stands
between them, so that joining the pieces with line feeds gives the text back.  `lines` is the
reading of a person: a line may end in a carriage return and a line feed, and a final line
feed ends the last line instead of opening an empty one.
-/

namespace Resettle.Text

/-- The stretches of a text between occurrences of `sep`, one more than there are occurrences. -/
def split (sep : Char) : List Char → List (List Char)
  | [] => [[]]
  | c :: cs =>
      if c = sep then [] :: split sep cs
      else
        match split sep cs with
        | [] => [[c]]
        | piece :: rest => (c :: piece) :: rest

/-- Stretches joined with `sep` between neighbours. -/
def join (sep : Char) : List (List Char) → List Char
  | [] => []
  | [piece] => piece
  | piece :: rest => piece ++ sep :: join sep rest

theorem split_ne_nil (sep : Char) (cs : List Char) : split sep cs ≠ [] := by
  cases cs with
  | nil => simp [split]
  | cons c cs =>
      simp only [split]
      split
      · simp
      · split <;> simp

@[simp] theorem join_split (sep : Char) (cs : List Char) : join sep (split sep cs) = cs := by
  induction cs with
  | nil => rfl
  | cons c cs ih =>
      simp only [split]
      split
      · next h =>
          subst h
          cases hs : split c cs with
          | nil => exact absurd hs (split_ne_nil c cs)
          | cons piece rest => simp [join, ← hs, ih]
      · cases hs : split sep cs with
        | nil => exact absurd hs (split_ne_nil sep cs)
        | cons piece rest =>
            cases rest <;> simp_all [join]

theorem sep_notMem_of_mem_split {sep : Char} {cs piece : List Char}
    (h : piece ∈ split sep cs) : sep ∉ piece := by
  induction cs generalizing piece with
  | nil => simp_all [split]
  | cons c cs ih =>
      simp only [split] at h
      split at h
      · rcases List.mem_cons.1 h with rfl | h
        · simp
        · exact ih h
      · next hc =>
          cases hs : split sep cs with
          | nil => exact absurd hs (split_ne_nil sep cs)
          | cons first rest =>
              simp only [hs, List.mem_cons] at h
              rcases h with rfl | h
              · have := ih (hs ▸ List.mem_cons_self)
                simp [this, Ne.symm hc]
              · exact ih (hs ▸ List.mem_cons_of_mem _ h)

def pieces (cs : List Char) : List (List Char) :=
  split '\n' cs

/-- A line without the carriage return that may stand before its line feed. -/
def dropReturn (line : List Char) : List Char :=
  if line.getLast? = some '\r' then line.dropLast else line

/-- The lines of a text, their endings removed.  A line ends in a line feed, or in a carriage
return and a line feed; what follows the last line feed is a line only if it is not empty. -/
def lines (cs : List Char) : List (List Char) :=
  match (pieces cs).reverse with
  | [] => []
  | last :: ended =>
      (ended.map dropReturn).reverse ++ (if last = [] then [] else [last])

end Resettle.Text
