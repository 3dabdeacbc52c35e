import Resettle.Json.Token

/-!
# Writing JSON

Two spellings of a value.  `compact` is the spelling of its tokens and nothing else; `pretty` puts
every member and every item on a line of its own, two blanks further in than its container.
-/

namespace Resettle.Json

mutual

def tokens : Json → List Token
  | null => [.null]
  | bool b => [.bool b]
  | number n => [.number n]
  | string s => [.string s]
  | array items => .openArray :: itemTokens items
  | object members => .openObject :: memberTokens members

/-- The tokens of items, up to the end of their array. -/
def itemTokens : List Json → List Token
  | [] => [.closeArray]
  | [j] => tokens j ++ [.closeArray]
  | j :: rest => tokens j ++ .comma :: itemTokens rest

def memberTokens : List (Option String × Json) → List Token
  | [] => [.closeObject]
  | [(name, j)] => .string name :: .colon :: (tokens j ++ [.closeObject])
  | (name, j) :: rest => .string name :: .colon :: (tokens j ++ .comma :: memberTokens rest)

end

/-- The spelling without blanks. -/
def compact (j : Json) : String :=
  String.ofList (j.tokens.flatMap Token.text)

def newLine (depth : Nat) : List Char :=
  '\n' :: List.replicate (2 * depth) ' '

mutual

/-- The spelling over several lines of a value at a depth of containers. -/
def prettyAt (depth : Nat) : Json → List Char
  | array [] => ['[', ']']
  | array items => '[' :: prettyItems depth items
  | object [] => ['{', '}']
  | object members => '{' :: prettyMembers depth members
  | null => Token.text .null
  | bool b => Token.text (.bool b)
  | number n => Token.text (.number n)
  | string s => Token.text (.string s)

def prettyItems (depth : Nat) : List Json → List Char
  | [] => newLine depth ++ [']']
  | [j] => newLine (depth + 1) ++ prettyAt (depth + 1) j ++ newLine depth ++ [']']
  | j :: rest => newLine (depth + 1) ++ prettyAt (depth + 1) j ++ ',' :: prettyItems depth rest

def prettyMembers (depth : Nat) : List (Option String × Json) → List Char
  | [] => newLine depth ++ ['}']
  | [(name, j)] =>
      newLine (depth + 1) ++ Token.text (.string name) ++ ':' :: ' ' ::
        prettyAt (depth + 1) j ++ newLine depth ++ ['}']
  | (name, j) :: rest =>
      newLine (depth + 1) ++ Token.text (.string name) ++ ':' :: ' ' ::
        prettyAt (depth + 1) j ++ ',' :: prettyMembers depth rest

end

def pretty (j : Json) : String :=
  String.ofList (prettyAt 0 j)

end Resettle.Json
