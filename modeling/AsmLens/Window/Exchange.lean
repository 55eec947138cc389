import AsmLens.Service.Catalog
import AsmLens.Service.Output
import AsmLens.Service.Query
import AsmLens.Window.Basic

/-!
# Exchanges with the service

`Query.send` asks the service something, under the configuration in force, and the readers turn its
answer into a value or into a sentence for the user that says why there is none. A failure of the
network is such a sentence, never a fault of the task.
-/

namespace AsmLens

/-- What comes back for a request: the body of a response, which may be missing, or a fault. -/
abbrev Reply := Except Fault (Option Json)

namespace Query

def headers : List (String × String) :=
  [("Accept", "application/json"), ("Content-Type", "application/json")]

def request (q : Query) (config : Config) (environment : Option String) : Request :=
  ⟨q.verb, q.address (config.baseUrl environment), q.body?, headers, config.timeout⟩

/-- Sends a query, and gives the number of the request. -/
def send (q : Query) : Action Nat := do
  let w ← get
  log [q.announcement (w.config.baseUrl w.environment)]
  set { (← get) with requests := w.requests ++ [true] }
  emit (.request w.requests.length (q.request w.config w.environment))
  return w.requests.length

def logFailure (q : Query) (fault : Fault) : Action Unit :=
  logError s!"{logName} {q.failing}:" (some fault)

/-- The body that came back for a query that only asks, or what to tell the user. -/
def fetched (q : Query) (reply : Reply) : Host (Except String (Option Json)) := do
  match reply with
  | .ok body => return .ok body
  | .error fault =>
    q.logFailure fault
    return .error s!"{q.failing}: {← fault.describe}"

def fetchedCatalog {α : Type} (q : Query) (what : String)
    (read : Json → Except Fault (Option α)) (reply : Reply) : Host (Except String (List α)) := do
  match ← q.fetched reply with
  | .error e => return .error e
  | .ok body => Catalog.read what read body

/-- The result that came back for a query that sends a source. Whatever goes wrong while it is read
counts as a failure of the request. -/
def posted {α : Type} (q : Query) (read : Option Json → Except Fault (Except String α))
    (reply : Reply) : Host (Except String α) := do
  match reply.bind read with
  | .ok result => return result
  | .error fault =>
    q.logFailure fault
    return .error (← fault.describe)

def languagesFrom (reply : Reply) : Host (Except String (List Language)) :=
  Query.languages.fetchedCatalog "languages" Language.read reply

def compilersFrom (language : String) (reply : Reply) : Host (Except String (List Compiler)) :=
  (Query.compilers language).fetchedCatalog "compilers" Compiler.read reply

def formattersFrom (reply : Reply) : Host (Except String (List Formatter)) :=
  Query.formatters.fetchedCatalog "formatters" Formatter.read reply

end Query

end AsmLens
