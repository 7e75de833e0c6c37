import HostStack.Session.Perform

/-!
# Reports

A session reports on each step: its outcome or its failure, the stack after it, the labelled
objects that were freed in it, and the events and factory calls that it caused. After the last
step the stack is let go of, and the objects that this frees are reported as well, while
handles, registers and saves are still there.
-/

namespace HostStack

structure Report where
  outcome : Except SessionError Outcome
  size : Nat
  top : Option ItemKind
  freed : List String
  events : List Event
  built : List FactoryMethod

namespace Session

def clearLogs (s : Session) : Session :=
  { s with machine := { s.machine with events := [], built := [] } }

/-- The labels of the objects that were freed since an earlier state, in ascending order. -/
def freedLabels (s earlier : Session) : List String :=
  s.heap.labels (s.heap.freedSince earlier.heap)

def topKind? (s : Session) : Option ItemKind :=
  match s.stack.peek 0 with
  | .ok item => some item.kind
  | .error _ => none

/-- The report on a step with a given outcome, which led from one state to another. -/
def report (earlier : Session) (outcome : Except SessionError Outcome) (s : Session) : Report :=
  { outcome, size := s.stack.size, top := s.topKind?, freed := s.freedLabels earlier
    events := s.machine.events, built := s.machine.built }

/-- Does one step and reports on it. -/
def step (s : Session) (step : Step) : Report × Session :=
  match step.perform.run s.clearLogs with
  | .ok outcome after => (s.report (.ok outcome) after, after)
  | .error e after => (s.report (.error e) after, after)

/-- Does some steps, one after the other. -/
def run (s : Session) : List Step → List Report × Session
  | [] => ([], s)
  | step :: steps =>
    let (report, s) := s.step step
    let (reports, s) := s.run steps
    (report :: reports, s)

def dropStack (s : Session) : Session :=
  { s with machine :=
    { s.machine with stack := s.stack.clear, heap := s.heap.release s.stack.objects } }

/-- Reports on some steps, and on the objects that are freed with the stack afterwards. -/
def transcript (s : Session) (steps : List Step) : List Report × List String :=
  let (reports, s) := s.run steps
  (reports, s.dropStack.freedLabels s)

end Session

end HostStack
