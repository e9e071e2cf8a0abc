import CoreBench.Program

/-!
The programs on the command line. The first argument names the program, and the others are its own. What a
program may come to read is taken from the disk ahead of it, the process is computed, and the files that it
changed are written back.
-/

namespace CoreBench

open CoreBench.Files CoreBench.Random CoreBench.Settings CoreBench.Text

namespace Main

/-- What stands at a place on the disk, if anything. -/
def probe (p : Place) : IO (Option Node) := do
  try
    let b ← IO.FS.readBinFile (Tree.placeText p)
    pure (some (.file b.data.toList))
  catch
    | .inappropriateType _ 21 _ => pure (some .directory)
    | _ => pure none

/-- The tree with what stands at a place on the disk, unless it is known. -/
def learn (t : Tree) (p : Place) : IO Tree := do
  if (t.node? p).isSome then return t
  match ← probe p with
  | none => return t
  | some n => return t.put p n

/-- The place that the names of a path lead to from `here`. -/
def resolve (here : Place) (ns : List String) : Place :=
  ns.foldl (fun p n => if n = "." then p else if n = ".." then p.dropLast else p ++ [n]) here

/-- The tree with all places on the way of a path. -/
def learnPath (t : Tree) (path : String) : IO Tree :=
  let ns := Tree.names path
  let ways := (List.range (ns.length + 1)).map fun n => resolve (t.start path) (ns.take n)
  ways.foldlM learn t

/-- The tree with all places on the ways of several paths. -/
def learnPaths (t : Tree) (paths : List String) : IO Tree :=
  paths.foldlM learnPath t

/-- The configuration files that a command line and an environment may name. -/
def candidates (tool : Tool) (env : Environment) (args : List String) : List String :=
  match Arguments.read tool.options true args with
  | .error _ => []
  | .ok given =>
    (configPaths tool env given).flatMap fun path => path :: (withExtension? path).toList

/-- The environment of this process. -/
def environment : IO Environment := do
  let b ← IO.FS.readBinFile "/proc/self/environ"
  let s := (ofOctets? b.data.toList).getD ""
  pure ((pieces '\x00' s.toList).filterMap fun v =>
    (cut? ['='] v).map fun (name, value) => (String.ofList name, String.ofList value))

/-- Writes the files back that differ from what was there. -/
def writeBack (before after : Tree) : IO Unit :=
  after.nodes.forM fun (p, n) =>
    match n with
    | .file b =>
      if before.node? p = some n then pure ()
      else IO.FS.writeBinFile (Tree.placeText p) ⟨b.toArray⟩
    | _ => pure ()

/-- Tells what a process has left to tell. -/
def tell (tool : Tool) (o : Outcome) : IO Unit := do
  for r in o.rejected do IO.eprintln ("ignoring invalid directive " ++ r)
  for l in o.logged do IO.eprintln l
  match o.ending with
  | .usage .helpRequested => IO.print tool.help
  | .usage .versionRequested => IO.println tool.name
  | .usage _ => IO.eprint tool.help
  | .failed f =>
    IO.eprintln ("Error: " ++ f.message)
    for c in f.causes do IO.eprintln ("  caused by: " ++ c)
  | .done out => IO.print out

/-- Runs a program. -/
def run {γ : Type} (p : Program γ) (args : List String) : IO UInt32 := do
  let env ← environment
  let here := resolve [] (Tree.names (← IO.currentDir).toString)
  let files ← learnPaths (Tree.withDevices here) (candidates p.tool env args)
  let files ← match load p.tool p.decode true files env args with
    | .error _ => pure files
    | .ok c => learnPath files (p.path c)
  let o := p.process files env args
  writeBack files o.files
  tell p.tool o
  pure (UInt32.ofNat o.ending.code)

/-- A key from the system's own source of random octets. -/
def freshKey : IO Key := do
  let b ← IO.getRandomBytes 32
  let octet (i : Nat) : UInt32 := (b.data.getD i 0).toUInt32
  pure (Vector.ofFn fun i =>
    octet (4 * i) ||| (octet (4 * i + 1) <<< 8) ||| (octet (4 * i + 2) <<< 16)
      ||| (octet (4 * i + 3) <<< 24))

end Main

end CoreBench

/-- Runs the program that the first argument names. -/
def main (args : List String) : IO UInt32 := do
  match args with
  | [] => IO.eprintln "a program has to be named"; pure 2
  | name :: rest =>
    if name = CoreBench.Trace.tool.name then CoreBench.Main.run CoreBench.traceStats rest
    else if name = CoreBench.Stimuli.tool.name then
      CoreBench.Main.run (CoreBench.stimuliGen (← CoreBench.Main.freshKey)) rest
    else
      IO.eprintln "there is no such program"
      pure 2
