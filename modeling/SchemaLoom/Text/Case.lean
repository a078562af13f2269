import SchemaLoom.Text.CaseTable
import SchemaLoom.Text.Printable

/-!
# Letter case and words

Names are split into words at separators and at changes of case, and the words are put together
again as `snake_case` or `PascalCase`.  A digit has no case and never ends a word.  Everything is
said on lists of characters; a character together with what joins it is one unit.
-/

namespace SchemaLoom.Text

/-- The mapping of one character by a table of runs and a table of expansions. -/
def mapChar (runs : List CaseRun) (expansions : List (Nat × List Nat)) (char : Char) : List Char :=
  match expansions.lookup char.toNat with
  | some codes => codes.map Char.ofNat
  | none =>
    match runs.find? (·.contains char.toNat) with
    | some run => [Char.ofNat (char.toNat + run.shift).toNat]
    | none => [char]

def lowerChar (char : Char) : List Char :=
  if char.toNat < 0x80 then [char.toLower] else mapChar lowerRuns lowerExpansions char

def upperChar (char : Char) : List Char :=
  if char.toNat < 0x80 then [char.toUpper] else mapChar upperRuns upperExpansions char

/-- Whether the first character that is not passed over has a case. -/
def meetsCased (chars : List Char) : Bool :=
  match chars.dropWhile (within caseIgnorableRanges) with
  | [] => false
  | char :: _ => within casedRanges char

/-- Lower case, given the characters already passed, nearest first: a capital sigma takes its
final form when a cased character stands before it and none after it. -/
def lowerAfter : List Char → List Char → List Char
  | _, [] => []
  | passed, char :: rest =>
    let mapped :=
      if char = 'Σ' then
        if meetsCased passed && !meetsCased rest then ['ς'] else ['σ']
      else lowerChar char
    mapped ++ lowerAfter (char :: passed) rest

def lowerCase (chars : List Char) : List Char :=
  lowerAfter [] chars

def upperCase (chars : List Char) : List Char :=
  chars.flatMap upperChar

/-- One visible unit: a character and the marks and other characters that join it. -/
abbrev Cluster := List Char

/-- The visible units of a text, in order. -/
def clusters : List Char → List Cluster
  | [] => []
  | char :: rest =>
    match clusters rest with
    | (next :: marks) :: others =>
      if joins char next then (char :: next :: marks) :: others
      else [char] :: (next :: marks) :: others
    | others => [char] :: others

theorem flatten_clusters (chars : List Char) : (clusters chars).flatten = chars := by
  induction chars with
  | nil => rfl
  | cons char rest ih =>
    rw [clusters]
    split
    · next next marks others heq =>
      rw [heq] at ih
      split <;> simpa using ih
    · simpa using ih

namespace Cluster

def hasCase (cluster : Cluster) : Bool :=
  upperCase cluster != lowerCase cluster

def isUpper (cluster : Cluster) : Bool :=
  cluster.hasCase && cluster == upperCase cluster

def isLower (cluster : Cluster) : Bool :=
  cluster.hasCase && cluster == lowerCase cluster

def isSeparator (cluster : Cluster) : Bool :=
  cluster == ['_'] || cluster == ['-'] || cluster == [' ']

end Cluster

/-- A word ends between a small and a capital letter, and before the last capital of a run of
capitals that a small letter follows. -/
def endsWord (current : Cluster) : List Cluster → Bool
  | [] => false
  | next :: rest =>
    next.isUpper &&
      (current.isLower || (current.isUpper && rest.head?.any Cluster.isLower))

/-- The words of a sequence of units.  Separators are dropped and empty words stay. -/
def splitWords : List Cluster → List (List Cluster)
  | [] => [[]]
  | current :: rest =>
    if current.isSeparator then [] :: splitWords rest
    else if endsWord current rest then [current] :: splitWords rest
    else
      match splitWords rest with
      | [] => [[current]]
      | word :: others => (current :: word) :: others

/-- The words of a name. -/
def words (name : String) : List (List Cluster) :=
  splitWords (clusters name.toList)

/-- The first unit of the word in capitals and the others in small letters. -/
def capitalize : List Cluster → List Char
  | [] => []
  | first :: rest => upperCase first ++ lowerCase rest.flatten

/-- Small words joined by underscores. -/
def snake (name : String) : String :=
  String.ofList (['_'].intercalate ((words name).map fun word => lowerCase word.flatten))

/-- Capitalized words joined by nothing. -/
def pascal (name : String) : String :=
  String.ofList ((words name).flatMap capitalize)

def upper (name : String) : String :=
  String.ofList (upperCase name.toList)

end SchemaLoom.Text
