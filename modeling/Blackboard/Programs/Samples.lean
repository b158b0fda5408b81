import Blackboard.Programs.Geometry

/-!
# Sample programs

Three papers on a table: one highlights every program, one knows how large
papers are, and one fails at every other millisecond.
-/

namespace Blackboard.Programs

namespace Samples

/-- A paper with its top left corner at a point. -/
def paper (x y : Binary64) : Placement :=
  let width : Binary64 := 0.2
  let height : Binary64 := 0.25
  .ofCorners
    { topLeft := ⟨x, y⟩
      topRight := ⟨x + width, y⟩
      bottomRight := ⟨x + width, y + height⟩
      bottomLeft := ⟨x, y + height⟩ }

def isProgram : Claim := { name := BaseFacts.isA, args := [.var "p", .val (.text "program")] }

/-- Wishes that every program be highlighted. -/
def highlighter : Program :=
  let wishFor (context : Context) (m : Match) : Reaction := .ofExcept do
    return [context.wish "@ is highlighted" [← m.require "p"]]
  { Program.ofSource ⟨"1"⟩ "highlight every program" fun _ =>
      ⟨[.register (.each [isProgram] wishFor)], .done⟩ with
    placement := some (paper 0.1 0.1) }

def hasCornersInCm : String := "@ has corner points @ in cm"

/-- Supplies the size of an A4 paper to whoever asks for one, asks for the size
of every program, and logs how many of them can be converted. -/
def sizes : Program :=
  let supply (context : Context) (m : Match) : Reaction := .ofExcept do
    let points := Value.structured (.item context.origin 0) (Corners.rectangle 21.0 29.7).payload
    return [.assert (.fact hasCornersInCm [← m.require "p", points])]
  let count (_ : Context) (all : List Match) : Reaction :=
    ⟨[.log (.object [("calibrated", .int all.length)])], .done⟩
  { Program.ofSource ⟨"2"⟩ "measure papers in cm" fun _ =>
      ⟨[ .register (.capture { name := hasCornersInCm, args := [.var "p", .var "?points"] } supply),
         .register (.each
           [isProgram, { name := hasCornersInCm, args := [.var "p", .var "points"] }]
           fun _ _ => .idle),
         .register (.grouped
           [{ name := "@ has @ pixels per cm", args := [.var "p", .var "ratio"] }] count) ],
        .done⟩ with
    placement := some (paper 0.5 0.4) }

/-- Claims odd times and fails at even ones. -/
def broken : Program :=
  let check (_ : Context) (m : Match) : Reaction := .ofExcept do
    let time := (← m.require "t").int?.getD 0
    if time % 2 == 0 then
      throw (.callback "even timestamps are not supported")
    return [.assert (.fact "odd time is @" [.int time])]
  Program.ofSource ⟨"3"⟩ "divide by nothing" fun _ =>
    ⟨[.register (.each [{ name := BaseFacts.currentTime, args := [.var "t"] }] check)], .done⟩

end Samples

/-- The geometry program and the samples. -/
def samples : List Program := [geometry, Samples.highlighter, Samples.sizes, Samples.broken]

end Blackboard.Programs
