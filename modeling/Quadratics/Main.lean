import Quadratics.CommandLine

/-!
# The program

Writes the response to the arguments and exits with its status.
-/

set_option autoImplicit false

def main (arguments : List String) : IO UInt32 := do
  let response := Quadratics.CommandLine.run arguments
  IO.print response.output
  IO.eprint response.complaint
  return response.status
