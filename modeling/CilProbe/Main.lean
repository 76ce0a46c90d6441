import CilProbe.Image.Managed
import CilProbe.Report
import CilProbe.Report.Usage

/-!
The command line: the path of an assembly and options.
-/

open CilProbe

private def program : String := "cilprobe"

private def describe : ImageError → String
  | .notExecutable => "The file is no executable image."
  | .format e => e.text

private def explanation : String := Report.ofLines (Report.usage program)

/-- Ends with 2 if the arguments are not understood, and with 1 if the file is no assembly. -/
def main (arguments : List String) : IO UInt32 := do
  match arguments with
  | [] =>
    IO.eprint explanation
    return 2
  | path :: rest =>
    match Report.Options.ofArguments? rest with
    | none =>
      IO.eprint explanation
      return 2
    | some .help =>
      IO.print explanation
      return 0
    | some (.report options) =>
      match ManagedImage.read (← IO.FS.readBinFile path).data with
      | .error e =>
        IO.eprintln (describe e)
        return 1
      | .ok m =>
        IO.print ((Report.text (m.assembly.callSource m.bodies) options).run m.found).1
        return 0
