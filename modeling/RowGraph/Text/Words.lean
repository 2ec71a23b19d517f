import RowGraph.Text.Alphanumeric
import RowGraph.Text.LetterCase

/-!
Member names and column names.  A member is written in the caller's own style (`pointPosX`,
`HTTPServer`, `point-pos`); the column it is stored in has the same words in lower case, joined by
underscores.

Words are separated by every character that is neither a letter nor a digit, and inside a run of
letters and digits by the change of case: before a capital that follows a small letter, and before
the last capital of several when a small letter follows it.
-/

namespace RowGraph
namespace Text

/-! ## Runs of letters and digits -/

/-- The maximal parts of a text that lie between characters outside words; a part may be empty. -/
def runs : List Char → List (List Char)
  | [] => [[]]
  | c :: rest =>
    if isAlphanumeric c then
      match runs rest with
      | [] => [[c]]
      | first :: others => (c :: first) :: others
    else [] :: runs rest

/-! ## Changes of case inside a run -/

/-- The case that the current word has shown so far.  Digits and letters without case leave it as it
is. -/
inductive WordCase where
  | unknown
  | small
  | capital
  deriving DecidableEq

namespace WordCase

def after (case : WordCase) (c : Char) : WordCase :=
  if isLower c then small else if isUpper c then capital else case

end WordCase

/-- Cut a run into words.  `word` holds the characters of the current word, `case` the case it has
shown. -/
def wordsFrom (case : WordCase) (word : List Char) : List Char → List (List Char)
  | [] => []
  | [c] => [word ++ [c]]
  | c :: next :: rest =>
    if case.after c = .small && isUpper next then
      (word ++ [c]) :: wordsFrom .unknown [] (next :: rest)
    else if case = .capital && isUpper c && isLower next then
      word :: wordsFrom .unknown [c] (next :: rest)
    else wordsFrom (case.after c) (word ++ [c]) (next :: rest)

def words (s : List Char) : List (List Char) :=
  (runs s).flatMap (wordsFrom .unknown [])

/-! ## Column spelling -/

/-- A word in lower case.  A sigma that ends the word takes its final form. -/
def lowerWord : List Char → List Char
  | [] => []
  | [c] => if c = Char.ofNat 0x3a3 then [Char.ofNat 0x3c2] else lower c
  | c :: next :: rest => lower c ++ lowerWord (next :: rest)

/-- The column spelling of a member name. -/
def snakeCase (s : String) : String :=
  String.intercalate "_" ((words s.toList).map fun word => String.ofList (lowerWord word))

/-- The column that stores a reference member when the declaration does not name one. -/
def foreignKeyName (s : String) : String :=
  snakeCase s ++ "_id"

/-! ## Nothing but separators is lost -/

/-- The cut keeps every character of the run, in order. -/
theorem flatten_wordsFrom (case : WordCase) (word rest : List Char) (h : rest ≠ []) :
    (wordsFrom case word rest).flatten = word ++ rest := by
  fun_induction wordsFrom case word rest with
  | case1 => exact absurd rfl h
  | case2 => simp
  | case3 _ _ _ _ _ _ ih => simp [ih]
  | case4 _ _ _ _ _ _ _ ih => simp [ih]
  | case5 _ _ _ _ _ _ _ ih => simp [ih]

theorem flatten_runs (s : List Char) : (runs s).flatten = s.filter isAlphanumeric := by
  induction s with
  | nil => rfl
  | cons c rest ih =>
    rw [runs]
    split
    next h =>
      split
      next hr => rw [hr] at ih; simp_all
      next first others hr => rw [hr] at ih; simp_all
    next h => simp_all

/-- The words of a text, taken together, are its letters and digits. -/
theorem flatten_words (s : List Char) : (words s).flatten = s.filter isAlphanumeric := by
  rw [← flatten_runs, words]
  induction runs s with
  | nil => rfl
  | cons run others ih =>
    rw [List.flatMap_cons, List.flatten_append, List.flatten_cons, ih]
    cases run with
    | nil => simp [wordsFrom]
    | cons c rest => rw [flatten_wordsFrom _ _ _ (by simp)]; rfl

end Text
end RowGraph
