/-!
# Memory commands

A packet either asks for something or answers.  Requests and their answers are
commands of their own, so the command alone tells where a packet may travel:
`Command.response?` pairs a request with its answer, and a writeback is the
one request that has none.
-/

namespace CacheSim

/-- What a packet asks for or answers. -/
inductive Command where
  | readReq
  | readResp
  | writeReq
  | writeResp
  | writebackDirty
  deriving DecidableEq, Ord, Inhabited

namespace Command

/-- All commands, in their order. -/
def all : List Command :=
  [readReq, readResp, writeReq, writeResp, writebackDirty]

/-- The name a command is written by. -/
def name : Command → String
  | readReq => "ReadReq"
  | readResp => "ReadResp"
  | writeReq => "WriteReq"
  | writeResp => "WriteResp"
  | writebackDirty => "WritebackDirty"

/-- The command of a name. -/
def ofName? (s : String) : Option Command :=
  all.find? (·.name == s)

/-- Data flows towards the requestor. -/
def isRead : Command → Bool
  | readReq | readResp => true
  | _ => false

/-- Data flows towards the memory. -/
def isWrite : Command → Bool
  | writeReq | writeResp | writebackDirty => true
  | _ => false

/-- Travels towards the memory. -/
def isRequest : Command → Bool
  | readReq | writeReq | writebackDirty => true
  | _ => false

/-- Travels towards the requestor. -/
def isResponse : Command → Bool
  | readResp | writeResp => true
  | _ => false

/-- The answer to a request, for the requests that have one. -/
def response? : Command → Option Command
  | readReq => some readResp
  | writeReq => some writeResp
  | _ => none

/-- A request whose requestor waits for an answer. -/
def needsResponse (c : Command) : Bool :=
  c.response?.isSome

/-- Every command moves data in exactly one direction. -/
theorem isWrite_eq_not_isRead (c : Command) : c.isWrite = !c.isRead := by
  cases c <;> rfl

theorem isRead_of_not_isWrite {c : Command} (h : ¬c.isWrite) : c.isRead := by
  simpa [isWrite_eq_not_isRead] using h

/-- An answer moves data the same way as its request, and is not itself answered. -/
theorem of_response? {c r : Command} (h : c.response? = some r) :
    r.isResponse ∧ r.isRead = c.isRead ∧ r.response? = none := by
  cases c <;> simp_all [response?] <;> subst h <;> decide

end Command

end CacheSim
