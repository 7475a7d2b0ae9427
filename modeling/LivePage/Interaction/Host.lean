import LivePage.Value.Basic

/-!
# The host

Requests and functions that only the host of a page can answer. An answer may depend on
everything that was asked before.
-/

namespace LivePage

structure Request where
  url : String
  method : String := "GET"
  headers : Fields String := []
  body : Option Value := none
deriving Repr, Inhabited

def Request.toValue (r : Request) : Value :=
  .obj ([("url", .str r.url), ("method", .str r.method),
    ("headers", .obj (r.headers.map fun (k, v) => (k, .str v)))] ++ Fields.optional "body" r.body)

inductive NetworkError where
  | request (url message : String)
  | status (url : String) (code : Nat)
  | decode (url message : String)
deriving DecidableEq, Repr

def NetworkError.message : NetworkError → String
  | request url message => s!"request to {url} failed: {message}"
  | status url code => s!"{url} answered {code}"
  | decode url message => s!"response from {url} is not JSON: {message}"

/-- A call of a function of the host. -/
structure Call where
  function : String
  args : List Value
  data : Value
deriving Repr, Inhabited

structure Host where
  /-- The time that expressions read, in milliseconds. -/
  clock : Int
  /-- The answer to a request, given those before it. -/
  answer : List Request → Request → Except NetworkError Value
  /-- The function of a name; its result may depend on the calls before. -/
  function? : String → Option (List Call → List Value → Value → Except String Value)

namespace Host

/-- A host without any network or functions. -/
def alone (clock : Int) : Host where
  clock := clock
  answer _ r := .error (.request r.url "no network")
  function? _ := none

end Host

end LivePage
