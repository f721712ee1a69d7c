/-!
# Relations to neighbors and answers to requests
-/

namespace MeshSecurity

/-- How far key establishment with a neighbor has come. -/
inductive Relation
  | tentative
  | permanent
deriving DecidableEq, Repr

/-- The number by which a relation is reported. -/
def Relation.code : Relation → UInt8
  | .tentative => 0
  | .permanent => 1

/-- The outcome told to whoever issued a revocation request. -/
inductive StatusCode
  | success
  /-- The request failed for a reason without a code of its own. -/
  | failure
  | listFull
  | malformed
deriving DecidableEq, Repr

namespace StatusCode

def code : StatusCode → UInt8
  | success => 0
  | failure => 1
  | listFull => 2
  | malformed => 3

def ofCode? (n : UInt8) : Option StatusCode :=
  [success, failure, listFull, malformed].find? (·.code == n)

def isSuccess (s : StatusCode) : Bool := s == success

/-- The code as one ASCII digit. -/
def digit (s : StatusCode) : UInt8 := 48 + s.code

theorem ofCode?_code (s : StatusCode) : ofCode? s.code = some s := by
  cases s <;> rfl

end StatusCode

end MeshSecurity
