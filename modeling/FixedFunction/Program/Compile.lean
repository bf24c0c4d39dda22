import FixedFunction.Program.Lower
import FixedFunction.Raster.State
import FixedFunction.Shader.Vertex
import FixedFunction.Shader.Fragment
import FixedFunction.Shader.Literal
import FixedFunction.Shader.Printer

/-!
# Compiling materials

**Input.**  A material, and what is to be left out of its program.

**Results.**
* `Material.compile`: the two shaders and the raster state, or the first setting that is not
  supported.
* `Program.texts`: the texts of the two shaders, or the first number that cannot be written.
-/

namespace FixedFunction

/-- The texts of the two shaders of a program. -/
def Program.texts (p : Program) : Except Error (String × String) := do
  (Shader.literals p).forM Shader.Literal.check
  return (Shader.Source.text (Shader.vertexShader p), Shader.Source.text (Shader.fragmentShader p))

/-- A compiled material. -/
structure Compiled where
  /-- The name of the material. -/
  name : String
  /-- The program that the shaders are made from. -/
  program : Program
  state : RasterState
deriving DecidableEq

namespace Compiled

/-- The text of the vertex shader. -/
def vertexText (c : Compiled) : String :=
  Shader.Source.text (Shader.vertexShader c.program)

/-- The text of the fragment shader. -/
def fragmentText (c : Compiled) : String :=
  Shader.Source.text (Shader.fragmentShader c.program)

end Compiled

/-- Compiles a material. -/
def Material.compile (o : Omissions) (m : Material) : Except Error Compiled := do
  let program ← m.lower o
  let state ← m.rasterState
  return { name := m.name, program, state }

end FixedFunction
