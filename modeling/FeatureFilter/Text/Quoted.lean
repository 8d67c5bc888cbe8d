namespace FeatureFilter.Text

/-- Writes every quote twice. -/
def double (q : Char) : List Char → List Char
  | [] => []
  | c :: cs => if c = q then q :: q :: double q cs else c :: double q cs

/-- Reads every pair of quotes as one, from left to right. -/
def undouble (q : Char) : List Char → List Char
  | [] => []
  | [c] => [c]
  | c :: d :: cs => if c = q ∧ d = q then q :: undouble q cs else c :: undouble q (d :: cs)

/-- The quoted form of a text. -/
def quote (q : Char) (cs : List Char) : List Char := q :: double q cs ++ [q]

/-- What stands between the first and the last character. -/
def between (cs : List Char) : List Char := cs.tail.dropLast

/-- The text that a quoted form stands for. -/
def unquote (q : Char) (cs : List Char) : List Char := undouble q (between cs)

end FeatureFilter.Text
