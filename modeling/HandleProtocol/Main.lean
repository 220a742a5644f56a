import HandleProtocol.Demonstration

/-!
The demonstration as a command: the first argument, if there is one, is the text
of the filter that decides which log records are printed.
-/

def main (arguments : List String) : IO UInt32 := do
  let transcript := HandleProtocol.Demonstration.transcript (.ofText arguments.head?)
  for line in transcript.lines do
    IO.println line
  return transcript.code.toUInt32
