import DelegatedFetch.Text.Blank

/-!
# Request methods

The four methods that can be signed. Their names are read in any letter case
and written in upper case.
-/

namespace DelegatedFetch

inductive Method where
  | get
  | post
  | put
  | delete
  deriving DecidableEq, Repr

namespace Method

def name : Method → String
  | get => "GET"
  | post => "POST"
  | put => "PUT"
  | delete => "DELETE"

def all : List Method := [get, post, put, delete]

/-- The method of a name, blanks around it and its letter case aside. -/
def parse? (s : String) : Option Method :=
  let upper := (trim s).toUpper
  all.find? (·.name == upper)

theorem parse?_name (m : Method) : parse? m.name = some m := by
  cases m <;> decide +kernel

end Method
end DelegatedFetch
