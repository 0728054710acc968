import Switchboard.Demo.Program
import Switchboard.Server.Basic
import Switchboard.Server.Session

/-!
# Switchboard.Main

The demo server on the command line.  Requests are read from standard input,
one a line: a method, a target, and a body up to the end of the line.
-/

namespace Switchboard.Demo

open Http Server

/-- The request that a line writes. -/
def requestOfLine (line : String) : Request :=
  match line.toList.splitOn ' ' with
  | [] => {}
  | [target] => { target := .ofText (String.ofList target) }
  | method :: target :: body =>
    { method := String.ofList method
      target := .ofText (String.ofList target)
      body := [.octets (Utf8.encode (String.ofList ([' '].intercalate body)))] }

/-- What is printed for a request. -/
def reportOf : Option Response → String
  | none => "no response"
  | some r => s!"{r.status} {r.body}"

/-- A line without its end. -/
def chompLine (line : String) : String :=
  String.ofList (line.toList.takeWhile fun c => c ≠ '\n' && c ≠ '\r')

/-- Answer the requests of standard input. -/
partial def serveInput (router : Router Unit) (s : Session Unit) : IO Unit := do
  let line ← (← IO.getStdin).getLine
  if line.isEmpty then return
  let (response, s) := Session.ask router s (requestOfLine (chompLine line))
  for e in s.takeJournal.1 do
    IO.eprintln e.toJson.text
  IO.println (reportOf response)
  serveInput router s.takeJournal.2

/-- Carry out what a command line asks for, and give the exit code. -/
def runProgram (args : List String) : IO UInt32 := do
  let plan := Plan.ofArguments args
  match plan with
  | .refuse r => if r.exitCode ≠ 0 then IO.eprintln s!"error: {r.name}"
  | .badContext reason => IO.eprint (badContextReport reason)
  | .serve port _ context =>
    match Server.init (config port context) with
    | .ok server => serveInput server.router (Session.fresh ())
    | .error _ => return 101
  return plan.exitCode.toUInt32

end Switchboard.Demo

def main (args : List String) : IO UInt32 := Switchboard.Demo.runProgram args
