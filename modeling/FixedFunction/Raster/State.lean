import FixedFunction.Material.Basic

/-!
# Raster state

**Input.**  A material.

**Results.**
* `Material.rasterState`: culling, depth and blending, or the refusal of bitwise blending.
* `levelBias`: the bias that makes texture levels at a viewport size match the reference size.
-/

namespace FixedFunction

/-- The faces that are dropped. -/
inductive CulledFaces where
  | none | front | back | frontAndBack
deriving DecidableEq

/-- The winding of the faces in front. -/
inductive Winding where
  | clockwise | counterclockwise
deriving DecidableEq

/-- How the two products of the blend equation are joined. -/
inductive BlendJoin where
  | add
  /-- The fragment is taken from the frame buffer. -/
  | reverseSubtract
deriving DecidableEq

/-- A factor of the blend equation, with the side that it reads. -/
inductive BlendWeight where
  | zero | one | sourceColor | oneMinusSourceColor | destinationColor | oneMinusDestinationColor
  | sourceAlpha | oneMinusSourceAlpha | destinationAlpha | oneMinusDestinationAlpha
deriving DecidableEq

/-- The blend equation, for color and alpha alike. -/
structure BlendEquation where
  /-- How the products are joined. -/
  operation : BlendJoin
  /-- Factor of the fragment. -/
  source : BlendWeight
  /-- Factor of the frame buffer. -/
  destination : BlendWeight
deriving DecidableEq

/-- What the raster back end is set to. -/
structure RasterState where
  /-- The faces that are dropped. -/
  cull : CulledFaces
  /-- The winding of the faces in front. -/
  front : Winding
  depthTest : Bool
  /-- Whether depth is written. -/
  depthWrite : Bool
  /-- The depth test. -/
  depthCompare : Comparison
  /-- The blend equation, if there is blending. -/
  blend : Option BlendEquation
deriving DecidableEq

/-- The faces that a mode drops. -/
def CullMode.face : CullMode → CulledFaces
  | .none => .none
  | .front => .front
  | .back => .back
  | .all => .frontAndBack

namespace BlendFactor

/-- The factor of the fragment.  A color factor reads the frame buffer there. -/
def sourceWeight : BlendFactor → BlendWeight
  | .zero => .zero
  | .one => .one
  | .srcClr => .destinationColor
  | .invSrcClr => .oneMinusDestinationColor
  | .srcAlpha => .sourceAlpha
  | .invSrcAlpha => .oneMinusSourceAlpha
  | .dstAlpha => .destinationAlpha
  | .invDstAlpha => .oneMinusDestinationAlpha

/-- The factor of the frame buffer.  A color factor reads the fragment there. -/
def destinationWeight : BlendFactor → BlendWeight
  | .srcClr => .sourceColor
  | .invSrcClr => .oneMinusSourceColor
  | f => f.sourceWeight

end BlendFactor

namespace Blend

/-- The blend equation of a setting. -/
def state (b : Blend) : Except Error (Option BlendEquation) :=
  match b.mode with
  | .none => .ok none
  | .blend => .ok (some ⟨.add, b.source.sourceWeight, b.destination.destinationWeight⟩)
  | .subtract => .ok (some ⟨.reverseSubtract, .one, .one⟩)
  | .logic => .error (.unsupportedBlend .logic)

end Blend

namespace Material

/-- The raster state of a material. -/
def rasterState (m : Material) : Except Error RasterState := do
  let blend ← m.output.blend.state
  return {
    cull := m.cull.face
    front := .clockwise
    depthTest := m.output.depthTest
    depthWrite := m.output.depthWrite
    depthCompare := m.output.depthCompare
    blend }

end Material

/-- The width of the frame buffer that texture levels are calibrated for. -/
def referenceWidth : UInt32 := 640

/-- The height of the frame buffer that texture levels are calibrated for. -/
def referenceHeight : UInt32 := 528

/-- The binary logarithm of the smaller of the two scales of a viewport. -/
def levelBias (width height : UInt32) : Float32 :=
  let x := width.toFloat32 / referenceWidth.toFloat32
  let y := height.toFloat32 / referenceHeight.toFloat32
  (if x ≤ y then x else y).log2

end FixedFunction
