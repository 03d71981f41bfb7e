/-
# Runs of a session

Runs are started in a session and numbered in the order in which they were accepted. A run can be
waited for once; one that was aborted has no report. Commands do the same without a number.
-/
import FormRehearsal.Session.Basic

namespace FormRehearsal

/-- What waiting for a run gives. -/
inductive Joined where
  | report (report : Report)
  | aborted
  | noSuchRun

namespace Session

/-- Starts a run and gives its number. -/
def start (s : Session) (program : Program) : Except RunError Nat × Session :=
  let a := s.runner.start program
  let s := s.react a
  match a.answer with
  | .ok token => (.ok s.handles.length, { s with handles := s.handles ++ [{ token }] })
  | .error e => (.error e, s)

/-- Waits for the end of a run. -/
def await (s : Session) (token : Token) : Option Report × Session :=
  let s := s.elapse (s.runner.endsAt token)
  ((s.endings.find? (·.1 = token)).map (·.2), s)

/-- Starts a run and waits for its end. -/
def run (s : Session) (program : Program) : Except RunError (Option Report) × Session :=
  let a := s.runner.start program
  let s := s.react a
  match a.answer with
  | .ok token =>
    let (report, s) := s.await token
    (.ok report, s)
  | .error e => (.error e, s)

/-- The session with another state of a run. -/
def setHandle (s : Session) (n : Nat) (handle : Handle) : Session :=
  { s with handles := s.handles.set n handle }

/-- Waits for the end of the run of a number. -/
def join (s : Session) (n : Nat) : Joined × Session :=
  match s.handles[n]? with
  | none => (.noSuchRun, s)
  | some handle =>
    let taken := s.setHandle n { handle with state := .taken }
    match handle.state with
    | .taken => (.noSuchRun, s)
    | .aborted => (.aborted, taken)
    | .pending =>
      match taken.await handle.token with
      | (some report, s) => (.report report, s)
      | (none, s) => (.noSuchRun, s)

/-- Gives up a run wherever it is, unless it has ended. -/
def abandon (s : Session) (n : Nat) (attended : Bool) : Session :=
  match s.handles[n]? with
  | none => s
  | some handle =>
    match s.runner.find? handle.token with
    | none => s
    | some _ =>
      { s with runner := s.runner.abandon handle.token attended }.setHandle n
        { handle with state := .aborted }

/-- Gives up the run of a number; tells whether there is one that was not yet waited for. -/
def abort (s : Session) (n : Nat) : Bool × Session :=
  match s.handles[n]? with
  | none => (false, s)
  | some handle => if handle.state = .taken then (false, s) else (true, s.abandon n true)

/-- Asks the run in progress to stop, and tells whether there is one. -/
def stop (s : Session) : Bool × Session :=
  let a := s.runner.stop
  (a.answer, s.react a)

/-- Does what a command asks for. -/
def handle (s : Session) (command : Command) : Ack × Session :=
  let a := s.runner.handle command
  (a.answer, s.react a)

/-- Sends a command, if anybody serves commands. -/
def send (s : Session) (command : Command) : Bool × Session :=
  if s.serving then (true, (s.handle command).2) else (false, s)

end Session

end FormRehearsal
