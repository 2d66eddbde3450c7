/-!
This module contains the list of completed calculations, the newest first.
-/

namespace Calculator

structure History where
  entries : List String := []
deriving DecidableEq

namespace History

def separator : String := " = "

def entry (expression result : String) : String := expression ++ separator ++ result

def splitFirst (separator : List Char) : List Char → Option (List Char × List Char)
  | [] => if separator = [] then some ([], []) else none
  | c :: text =>
    if separator.isPrefixOf (c :: text) then
      some ([], (c :: text).drop separator.length)
    else
      (splitFirst separator text).map fun (front, back) => (c :: front, back)

/--
Split an entry at the first separator into its expression and its result.
-/
def splitEntry? (entry : String) : Option (String × String) :=
  (splitFirst separator.toList entry.toList).map fun (expression, result) =>
    (String.ofList expression, String.ofList result)

def record (history : History) (expression result : String) : History :=
  ⟨entry expression result :: history.entries⟩

/--
Keep the newest entries, at most `limit` of them.
-/
def truncate (history : History) (limit : Nat) : History := ⟨history.entries.take limit⟩

def latest? (history : History) : Option String := history.entries.head?

def get? (history : History) (index : Nat) : Option String := history.entries[index]?

def size (history : History) : Nat := history.entries.length

def isEmpty (history : History) : Bool := history.entries.isEmpty

end History

end Calculator
