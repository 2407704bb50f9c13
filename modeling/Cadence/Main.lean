import Cadence.Live.Run

/-!
# The program

Carries out its command line with real files, a real clock and a real gateway.
-/

namespace Cadence

/-- The effects of the program. -/
def Live.effects : IO (Effects IO) := do
  let directory ← IO.currentDir
  return {
    directory := toString directory
    capacity := Setting.mostItems
    read := fun path => do
      try return some (← IO.FS.readFile path)
      catch _ => return none
    run := Live.run
    print := fun text => do
      try
        IO.print text
        (← IO.getStdout).flush
        return .ok ()
      catch error => return .error (toString error)
    save := fun path text => do
      try
        IO.FS.writeFile path text
        return .ok ()
      catch error => return .error (.io (toString error))
    complain := IO.eprint }

end Cadence

def main (arguments : List String) : IO UInt32 := do
  let environment ← Std.Internal.UV.System.osEnviron
  let status ← Cadence.Command.performLine (← Cadence.Live.effects) environment.toList arguments
  return UInt32.ofNat status
