import FixedFunction.Shader.Uniform
import FixedFunction.Proofs.Shader.Scope

/-!
# The scope of what all shaders declare

**Results.**
* `ranked_common`, `nodup_fields_common`, `closed_products`: the names that both shaders declare do
  not repeat, and the products of matrices and vectors mention only their parameters.
-/

namespace FixedFunction
namespace Shader

open Source Shader.Expr

section Mentions

variable (a b : Expr)

@[simp] theorem mentions_add : (a + b).mentions = a.mentions ++ b.mentions := rfl

@[simp] theorem mentions_sub : (a - b).mentions = a.mentions ++ b.mentions := rfl

@[simp] theorem mentions_mul : (a * b).mentions = a.mentions ++ b.mentions := rfl

@[simp] theorem mentions_div : (a / b).mentions = a.mentions ++ b.mentions := rfl

@[simp] theorem mentions_mod : (a % b).mentions = a.mentions ++ b.mentions := rfl

@[simp] theorem mentions_input (m : Member) : (input m).mentions = [⟨.input, some m⟩] := rfl

@[simp] theorem mentions_output (m : Member) : (output m).mentions = [⟨.output, some m⟩] := rfl

@[simp] theorem mentions_scene (m : Member) : (scene m).mentions = [⟨.scene, some m⟩] := rfl

@[simp] theorem mentions_material (m : Member) :
    (material m).mentions = [⟨.material, some m⟩] := rfl

@[simp] theorem mentions_packet (m : Member) : (packet m).mentions = [⟨.packet, some m⟩] := rfl

@[simp] theorem mentions_splat (f : Fn) (x : Float32) : (splat f x).mentions = [] := rfl

end Mentions

variable (p : Program)

theorem globals_common : globals (common p) =
    [⟨0, 0, .scene, .struct .sceneParams⟩, ⟨0, 1, .material, .struct .materialParams⟩,
      ⟨0, 2, .packet, .struct .packetParams⟩] := rfl

theorem ranked_globals_common : Ranked 0 1 ((globals (common p)).map (·.name)) := by
  rw [globals_common]
  exact ⟨by decide, by decide⟩

theorem functions_common : functions (common p) = functions products := rfl

theorem fields_common (t : StructName) : fields (common p) t =
    fields blocks t ++ if t = .vertexOutput then vertexOutput p else [] := by
  cases t <;> simp [common, fields, products, blocks, Decl.fields]

theorem nodup_vertexOutput : ((vertexOutput p).map (·.name)).Nodup := by
  have hcoords : ((List.range p.coordGens.length).map Member.coord).Nodup :=
    List.nodup_range.map fun i j h => Member.coord.inj h
  simpa [vertexOutput, located, List.map_map, Function.comp_def] using hcoords

theorem channel_mem_vertexOutput {i : Nat} (hi : i < 2) :
    .channel i ∈ (vertexOutput p).map (·.name) := by
  have hchannels : ∀ i < 2, .channel i ∈ [Member.position, .channel 0, .channel 1] := by decide
  exact List.mem_append_left ((List.range p.coordGens.length).map _ |>.map _) (hchannels i hi)

theorem coord_mem_vertexOutput {i : Nat} (hi : i < p.coordGens.length) :
    .coord i ∈ (vertexOutput p).map (·.name) := by
  simp [vertexOutput, located, hi]

theorem nodup_fields_common (t : StructName) : ((fields (common p) t).map (·.name)).Nodup := by
  rw [fields_common]
  cases t with
  | vertexOutput => exact nodup_vertexOutput p
  | _ =>
    rw [if_neg (by decide), List.append_nil]
    decide

theorem visible_common (f : FunctionDecl) : visible blocks f ⊆ visible (common p) f :=
  List.Subset.trans (visible_subset_append blocks products f) (visible_subset_append _ _ f)

/-- The members of the parameter blocks are visible everywhere. -/
theorem mem_visible_blocks {x : Mention} (hx : x ∈ visible blocks ⟨[], []⟩) (f : FunctionDecl) :
    x ∈ visible blocks f := by
  obtain ⟨v, hv, hx⟩ := List.mem_flatMap.1 hx
  rw [outer, List.append_nil] at hv
  exact List.mem_flatMap.2 ⟨v, List.mem_append_left _ hv, hx⟩

/-- A function that is not the entry of a shader: it mentions only its parameters, declares
nothing, and assigns nothing. -/
structure Helper (f : FunctionDecl) : Prop where
  closed : Closed (visible blocks f) f.body
  plain : ∀ s ∈ f.body, s.declared = [] ∧ s.assigned = []
  params_nodup : (f.params.map Prod.fst).Nodup
  params_rank : ∀ n ∈ f.params.map Prod.fst, 2 ≤ n.rank ∧ n.rank < 3

instance (f : FunctionDecl) : Decidable (Helper f) :=
  decidable_of_iff
    (Closed (visible blocks f) f.body ∧ (∀ s ∈ f.body, s.declared = [] ∧ s.assigned = []) ∧
      (f.params.map Prod.fst).Nodup ∧ ∀ n ∈ f.params.map Prod.fst, 2 ≤ n.rank ∧ n.rank < 3)
    ⟨fun h => ⟨h.1, h.2.1, h.2.2.1, h.2.2.2⟩, fun h => ⟨h.1, h.2, h.3, h.4⟩⟩

theorem helper_products : ∀ f ∈ functions products, Helper f := by
  decide

/-- A source of helpers and one entry, which has the shader's input as its parameter, is well
scoped if its entry is closed. -/
theorem wellScoped_of_entry {src : Source} {helpers : List FunctionDecl} {t : Ty}
    {body : List Stmt} {hi : Nat} (hfunctions : functions src = helpers ++ [⟨[(.input, t)], body⟩])
    (hvisible : ∀ f, visible blocks f ⊆ visible src f) (hhelpers : ∀ f ∈ helpers, Helper f)
    (hclosed : Closed (visible src ⟨[(.input, t)], body⟩) body)
    (hassigned : ∀ x ∈ body.flatMap Stmt.assigned, 3 ≤ x.1.rank)
    (hglobals : Ranked 0 2 ((globals src).map (·.name)))
    (hlocals : Ranked 3 hi (body.flatMap Stmt.declared)) (hhi : 3 ≤ hi)
    (hfields : ∀ t, ((fields src t).map (·.name)).Nodup)
    (hbindings : ((globals src).map fun g => (g.group, g.binding)).Nodup) : src.WellScoped := by
  have hfunction : ∀ f ∈ functions src, f ∈ helpers ∨ f = ⟨[(.input, t)], body⟩ := by
    intro f hf
    rwa [hfunctions, List.mem_append, List.mem_singleton] at hf
  have hdeclared : src.locals = body.flatMap Stmt.declared := by
    have hnone : helpers.flatMap (fun f => f.body.flatMap Stmt.declared) = [] :=
      List.flatMap_eq_nil_iff.2 fun f hf =>
        List.flatMap_eq_nil_iff.2 fun s hs => ((hhelpers f hf).plain s hs).1
    rw [locals, hfunctions, List.flatMap_append, hnone, List.nil_append, List.flatMap_singleton]
  refine wellScoped_of_ranked ?_ ?_ hglobals ?_ (hdeclared ▸ hlocals) hhi hfields hbindings
    (hfunctions ▸ List.mem_append_right _ List.mem_cons_self)
  · intro f hf
    rcases hfunction f hf with hf | rfl
    · exact (hhelpers f hf).closed.mono (hvisible f)
    · exact hclosed
  · intro f hf
    rcases hfunction f hf with hf | rfl
    · intro s hs x hx
      rw [((hhelpers f hf).plain s hs).2] at hx
      exact absurd hx List.not_mem_nil
    · exact fun s hs x hx => hassigned x (List.mem_flatMap.2 ⟨s, hs, hx⟩)
  · intro f hf
    rcases hfunction f hf with hf | rfl
    · exact ⟨(hhelpers f hf).params_nodup, (hhelpers f hf).params_rank⟩
    · exact (⟨by decide, by decide⟩ : Ranked 2 3 [.input])

end Shader
end FixedFunction
