import HandlerRegistry.CommandLine.Run
import HandlerRegistry.FileTree.Snapshot

/-!
# The command as a program

The program takes the arguments of the command, reads the snapshot of a tree from standard input,
runs the command on that tree, and writes the snapshot of the tree afterwards to standard output.
The report of a failed run goes to standard error.
-/

namespace HandlerRegistry
set_option autoImplicit false

/-- All that a stream still holds, after what has been read of it. -/
partial def readAll (stream : IO.FS.Stream) (text : String) : IO String := do
  let line ← stream.getLine
  if line.isEmpty then return text else readAll stream (text ++ line)

end HandlerRegistry

def main (arguments : List String) : IO UInt32 := do
  let text ← HandlerRegistry.readAll (← IO.getStdin) ""
  match HandlerRegistry.FileTree.ofSnapshot text with
  | none =>
    (← IO.getStderr).putStrLn "Error: standard input holds no snapshot"
    return 2
  | some tree =>
    let (exit, after) :=
      HandlerRegistry.CommandLine.run (arguments.map HandlerRegistry.Utf8.encode) tree
    (← IO.getStdout).putStr after.snapshot
    if let some report := exit.report then (← IO.getStderr).putStr report
    return UInt32.ofNat exit.code
