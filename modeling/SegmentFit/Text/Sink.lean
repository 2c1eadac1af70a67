import SegmentFit.Text.Quoted

/-!
# Sinks — what lines are printed to

Lines are printed to a text in memory, which takes any code points, or as bytes in UTF-8,
which has none for a surrogate. A line that cannot be encoded is not printed, and neither
is any line after it.
-/

namespace SegmentFit

inductive Sink where
  | memory
  | utf8
  deriving DecidableEq, Repr

/-- Code points without bytes: the first of them, its position, and their number. -/
structure SinkFault where
  first : Fin 0x800
  position : Nat
  count : Nat
  deriving DecidableEq, Repr

def SinkFault.message (fault : SinkFault) : String :=
  if fault.count = 1 then
    let shown := String.ofList (Text.quotedText [.surrogate fault.first])
    s!"'utf-8' codec can't encode character {shown} in position {fault.position}: "
      ++ "surrogates not allowed"
  else
    let last := fault.position + fault.count - 1
    s!"'utf-8' codec can't encode characters in position {fault.position}-{last}: "
      ++ "surrogates not allowed"

namespace Sink

/-- The first code points of a line that a sink does not take. -/
def fault? (sink : Sink) (line : CodeText) : Option SinkFault :=
  match sink with
  | .memory => none
  | .utf8 =>
    let rest := line.dropWhile fun c => !c.isSurrogate
    match rest with
    | .surrogate first :: _ =>
      some ⟨first, line.length - rest.length, (rest.takeWhile CodePoint.isSurrogate).length⟩
    | _ => none

/-- What is printed of lines, and the fault of the first one that is not taken. -/
def print (sink : Sink) : List CodeText → CodeText × Option SinkFault
  | [] => ([], none)
  | line :: rest =>
    match sink.fault? line with
    | some fault => ([], some fault)
    | none =>
      let (printed, fault) := sink.print rest
      (line ++ printed, fault)

end Sink

end SegmentFit
