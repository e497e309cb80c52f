/-
Chunk plans in documents.

* `PlanPhase.codec`: how the chunks were chosen, by name.
* `ChunkPlan.codec`: the chunks of an addition and its stages.
-/
import Datapath.Adder.Plan
import Datapath.Document.Codec

namespace Datapath

open Document

/-- Phases by name. -/
def PlanPhase.codec : Codec PlanPhase :=
  words [("Single", .single), ("Variable", .variable), ("Uniform", .uniform)]

/-- Chunks. -/
def Chunk.codec : Codec Chunk := record <| Chunk.mk
  <$> field "size" (natural 32) (·.size)
  <*> field "offset" (natural 32) (·.offset)
  <*> field "sum_stage" (natural 32) (·.sumStage)

/-- Chunk plans. -/
def ChunkPlan.codec : Codec ChunkPlan := record <| ChunkPlan.mk
  <$> field "width" (natural 32) (·.width)
  <*> field "chunks" (listOf Chunk.codec) (·.chunks)
  <*> field "phase" PlanPhase.codec (·.phase)
  <*> field "carry_stage" (natural 32) (·.carryStage)
  <*> field "select_stage" (natural 32) (·.selectStage)

end Datapath
