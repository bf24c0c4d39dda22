import FixedFunction.Binary.Format
import FixedFunction.Coded
import FixedFunction.Combiner.Arithmetic
import FixedFunction.Decimal.Shortest
import FixedFunction.DisplayList.Cursor
import FixedFunction.DisplayList.Scan
import FixedFunction.DisplayList.Triangle
import FixedFunction.Error
import FixedFunction.Field.Combiner
import FixedFunction.Field.Indirect
import FixedFunction.Field.Raster
import FixedFunction.Field.TexGen
import FixedFunction.Field.Vertex
import FixedFunction.Json.Basic
import FixedFunction.Json.Codec
import FixedFunction.Json.Parser
import FixedFunction.Json.Printer
import FixedFunction.Loader.Basic
import FixedFunction.Loader.Cache
import FixedFunction.Lz.Stream
import FixedFunction.Material.Basic
import FixedFunction.Material.Codec
import FixedFunction.Mesh.Basic
import FixedFunction.Mesh.Join
import FixedFunction.Program.Basic
import FixedFunction.Program.Compile
import FixedFunction.Program.Lower
import FixedFunction.Proofs.Binary.Nearest
import FixedFunction.Proofs.Binary.Widening
import FixedFunction.Proofs.Combiner.Components
import FixedFunction.Proofs.Combiner.Exact
import FixedFunction.Proofs.Combiner.Stages
import FixedFunction.Proofs.Combiner.Wraparound
import FixedFunction.Proofs.Decimal.Interval
import FixedFunction.Proofs.Decimal.Reading
import FixedFunction.Proofs.Decimal.Shortest
import FixedFunction.Proofs.Demand
import FixedFunction.Proofs.DisplayList.Commands
import FixedFunction.Proofs.DisplayList.Encoding
import FixedFunction.Proofs.DisplayList.Numbering
import FixedFunction.Proofs.DisplayList.Overflow
import FixedFunction.Proofs.DisplayList.Scanning
import FixedFunction.Proofs.DisplayList.Triangulation
import FixedFunction.Proofs.DisplayList.Words
import FixedFunction.Proofs.Failure
import FixedFunction.Proofs.Json.Defaults
import FixedFunction.Proofs.Json.Deletion
import FixedFunction.Proofs.Json.Records
import FixedFunction.Proofs.Json.Required
import FixedFunction.Proofs.Json.Saved
import FixedFunction.Proofs.Loader.Addresses
import FixedFunction.Proofs.Loader.Buffer
import FixedFunction.Proofs.Loader.Caching
import FixedFunction.Proofs.Loader.Cutting
import FixedFunction.Proofs.Loader.Denotation
import FixedFunction.Proofs.Loader.Footprint
import FixedFunction.Proofs.Loader.Grammar
import FixedFunction.Proofs.Loader.Inlining
import FixedFunction.Proofs.Loader.Locality
import FixedFunction.Proofs.Loader.Outcome
import FixedFunction.Proofs.Loader.Packing
import FixedFunction.Proofs.Loader.Run
import FixedFunction.Proofs.Loader.SingleVertex
import FixedFunction.Proofs.Loader.Totals
import FixedFunction.Proofs.Loader.Vertices
import FixedFunction.Proofs.Lz.Body
import FixedFunction.Proofs.Lz.Consumption
import FixedFunction.Proofs.Lz.Factorization
import FixedFunction.Proofs.Lz.Offsets
import FixedFunction.Proofs.Lz.Outcome
import FixedFunction.Proofs.Lz.RoundTrip
import FixedFunction.Proofs.Lz.Steps
import FixedFunction.Proofs.Material.Saved
import FixedFunction.Proofs.Mesh.Append
import FixedFunction.Proofs.Mesh.Concatenation
import FixedFunction.Proofs.Mesh.Consistent
import FixedFunction.Proofs.Mesh.Facing
import FixedFunction.Proofs.Mesh.Geometry
import FixedFunction.Proofs.Mesh.Grouping
import FixedFunction.Proofs.Mesh.Joining
import FixedFunction.Proofs.Mesh.Reachable
import FixedFunction.Proofs.Mesh.Refusal
import FixedFunction.Proofs.Program.Acceptance
import FixedFunction.Proofs.Program.Coherence
import FixedFunction.Proofs.Program.Coordinates
import FixedFunction.Proofs.Program.Demands
import FixedFunction.Proofs.Program.Lowering
import FixedFunction.Proofs.Program.Omissions
import FixedFunction.Proofs.Program.Ranges
import FixedFunction.Proofs.Program.Recording
import FixedFunction.Proofs.Program.Resolved
import FixedFunction.Proofs.Program.Unread
import FixedFunction.Proofs.Shader.Accesses
import FixedFunction.Proofs.Shader.Bounds
import FixedFunction.Proofs.Shader.Brackets
import FixedFunction.Proofs.Shader.Combining
import FixedFunction.Proofs.Shader.CommonScope
import FixedFunction.Proofs.Shader.Dropping
import FixedFunction.Proofs.Shader.Evaluation
import FixedFunction.Proofs.Shader.FragmentScope
import FixedFunction.Proofs.Shader.Literals
import FixedFunction.Proofs.Shader.Mentions
import FixedFunction.Proofs.Shader.Names
import FixedFunction.Proofs.Shader.Operands
import FixedFunction.Proofs.Shader.Reader
import FixedFunction.Proofs.Shader.Reading
import FixedFunction.Proofs.Shader.RunningCoord
import FixedFunction.Proofs.Shader.Scope
import FixedFunction.Proofs.Shader.Scoping
import FixedFunction.Proofs.Shader.Spelling
import FixedFunction.Proofs.Shader.Unwritten
import FixedFunction.Proofs.Shader.VertexScope
import FixedFunction.Proofs.Vertex.Extent
import FixedFunction.Proofs.Vertex.Inlining
import FixedFunction.Proofs.Vertex.LaidOut
import FixedFunction.Proofs.Vertex.Lines
import FixedFunction.Proofs.Vertex.Placement
import FixedFunction.Proofs.Vertex.Saved
import FixedFunction.Raster.State
import FixedFunction.Shader.Fragment
import FixedFunction.Shader.Literal
import FixedFunction.Shader.Printer
import FixedFunction.Shader.Tree
import FixedFunction.Shader.Uniform
import FixedFunction.Shader.Vertex
import FixedFunction.Uniform.Block
import FixedFunction.Vertex.Format
import FixedFunction.Vertex.Layout
import FixedFunction.Vertex.Mask
