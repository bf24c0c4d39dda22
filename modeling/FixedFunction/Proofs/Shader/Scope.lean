import FixedFunction.Proofs.Shader.Names
import Mathlib.Data.List.Nodup

/-!
# Scoping of shaders

What the statements of a shader declare and mention, and what it means that a shader is well
scoped.

**Invariant.**  Behind some statements of a body all is visible that the source and the parameters
make visible, the variables that the statements declared, and the members that they assigned.
`Closed` asks of each statement to mention only what is visible there.

**Results.**
* `WellScoped`: what is promised of a source.
* `wellScoped_of_closed`: a source whose bodies are closed, and whose names do not repeat, is well
  scoped.
-/

namespace FixedFunction
namespace Shader

/-- What an expression mentions: a variable, or a member of a variable. -/
structure Mention where
  name : Ident
  /-- The member that is read, or `none` for the whole variable. -/
  member : Option Member
deriving DecidableEq

/-- What an expression mentions. -/
@[simp] def Expr.mentions : Expr → List Mention
  | lit _ | int _ | bool _ | call0 _ => []
  | var n => [⟨n, none⟩]
  | member (var n) m => [⟨n, some m⟩]
  | member e _ | swizzle e _ | index e _ | paren e | not e | call1 _ e => e.mentions
  | element a b | binary _ a b | call2 _ a b => a.mentions ++ b.mentions
  | call3 _ a b c => a.mentions ++ b.mentions ++ c.mentions
  | call4 _ a b c d => a.mentions ++ b.mentions ++ c.mentions ++ d.mentions

/-- The variable of which a place is a part. -/
def Place.name : Place → Ident
  | var n | member n _ | component n _ => n

namespace Stmt

/-- What a statement mentions. -/
def mentions : Stmt → List Mention
  | bind _ e | declare _ e | discardIf e | .return e => e.mentions
  | assign p e | addAssign p e => ⟨p.name, none⟩ :: e.mentions
  | remark _ => []

/-- The variable that a statement declares. -/
def declared : Stmt → List Ident
  | bind n _ | declare n _ => [n]
  | _ => []

/-- The member that a statement assigns. -/
def assigned : Stmt → List (Ident × Member)
  | assign (.member n m) _ => [(n, m)]
  | _ => []

/-- What becomes visible behind a statement. -/
def provided (s : Stmt) : List Mention :=
  s.declared.map (⟨·, none⟩) ++ s.assigned.map fun x => ⟨x.1, some x.2⟩

theorem mem_assigned {s : Stmt} {n : Ident} {m : Member} :
    (n, m) ∈ s.assigned ↔ ∃ e, s = .assign (.member n m) e := by
  constructor
  · intro h
    unfold assigned at h
    split at h
    · rw [List.mem_singleton, Prod.mk.injEq] at h
      exact ⟨_, by rw [h.1, h.2]⟩
    · exact absurd h List.not_mem_nil
  · rintro ⟨e, rfl⟩
    exact List.mem_singleton_self _

end Stmt

/-- A global variable. -/
structure Global where
  group : Nat
  binding : Nat
  name : Ident
  type : Ty
deriving DecidableEq

/-- A function without its name. -/
structure FunctionDecl where
  params : List (Ident × Ty)
  body : List Stmt
deriving DecidableEq

namespace Decl

/-- The global variable that a declaration declares. -/
def globals : Decl → List Global
  | global group binding _ name type => [⟨group, binding, name, type⟩]
  | _ => []

/-- The function that a declaration declares. -/
def functions : Decl → List FunctionDecl
  | function _ _ params _ body => [⟨params, body⟩]
  | _ => []

/-- The fields of structure `t`, if that is what a declaration declares. -/
def fields (t : StructName) : Decl → List MemberDecl
  | struct name members => if name = t then members else []
  | _ => []

end Decl

namespace Source

/-- The global variables of a source. -/
def globals (src : Source) : List Global :=
  src.flatten.flatMap Decl.globals

/-- The functions of a source. -/
def functions (src : Source) : List FunctionDecl :=
  src.flatten.flatMap Decl.functions

/-- The fields of the structure with the given name. -/
def fields (src : Source) (t : StructName) : List MemberDecl :=
  src.flatten.flatMap (Decl.fields t)

/-- The constants and variables that the bodies of a source declare. -/
def locals (src : Source) : List Ident :=
  src.functions.flatMap fun f => f.body.flatMap Stmt.declared

/-- The variables that are there before the body of a function: global variables and parameters. -/
def outer (src : Source) (f : FunctionDecl) : List (Ident × Ty) :=
  src.globals.map (fun g => (g.name, g.type)) ++ f.params

/-- The names of these variables. -/
def outerNames (src : Source) (f : FunctionDecl) : List Ident :=
  (src.outer f).map Prod.fst

/-- What can be mentioned of a variable: itself, and the fields of its structure. -/
def ofVariable (src : Source) : Ident × Ty → List Mention
  | (n, .struct t) => ⟨n, none⟩ :: (src.fields t).map fun d => ⟨n, some d.name⟩
  | (n, _) => [⟨n, none⟩]

/-- What is visible before the body of a function. -/
def visible (src : Source) (f : FunctionDecl) : List Mention :=
  (src.outer f).flatMap src.ofVariable

/-- What is promised of the scoping of a source.  Names are compared as texts. -/
structure WellScoped (src : Source) : Prop where
  /-- No two global variables share a name. -/
  globals_nodup : ((src.globals.map (·.name)).map Ident.text).Nodup
  /-- No two global variables share a binding. -/
  bindings_nodup : (src.globals.map fun g => (g.group, g.binding)).Nodup
  /-- No two constants or variables of bodies share a name. -/
  locals_nodup : (src.locals.map Ident.text).Nodup
  /-- Every variable that a statement mentions is declared before it: as a global variable, as a
  parameter, or by an earlier statement. -/
  declared : ∀ f ∈ src.functions, ∀ before s after, f.body = before ++ s :: after →
    ∀ x ∈ s.mentions, x.name ∈ src.outerNames f ++ before.flatMap Stmt.declared
  /-- No other declaration of the source has its name. -/
  once : ∀ f ∈ src.functions, ∀ s ∈ f.body, ∀ x ∈ s.mentions,
    ((src.outerNames f ++ src.locals).map Ident.text).count x.name.text = 1
  /-- A member that is read of a global variable or of a parameter is a field of its structure,
  and the structure has one field with its name. -/
  fields : ∀ f ∈ src.functions, ∀ v t, (v, .struct t) ∈ src.outer f → ∀ s ∈ f.body,
    ∀ m, ⟨v, some m⟩ ∈ s.mentions → (((src.fields t).map (·.name)).map Member.text).count m.text = 1
  /-- A member that is read of any other variable was assigned by an earlier statement. -/
  assigned : ∀ f ∈ src.functions, ∀ before s after, f.body = before ++ s :: after →
    ∀ v m, ⟨v, some m⟩ ∈ s.mentions → v ∉ src.outerNames f →
      ∃ e, Stmt.assign (.member v m) e ∈ before

/-- Whether all fields of a structure have locations, each its own. -/
def Located (src : Source) (t : StructName) : Prop :=
  ∃ places : List Nat, places.Nodup ∧ (src.fields t).map (·.link) = places.map .location

end Source

/-- Whether each statement mentions only what is visible before it. -/
def Closed : List Mention → List Stmt → Prop
  | _, [] => True
  | visible, s :: rest => s.mentions ⊆ visible ∧ Closed (visible ++ s.provided) rest

instance decidableClosed : ∀ (visible : List Mention) (body : List Stmt),
    Decidable (Closed visible body)
  | _, [] => .isTrue trivial
  | visible, s :: rest =>
    have := decidableClosed (visible ++ s.provided) rest
    inferInstanceAs (Decidable (s.mentions ⊆ visible ∧ Closed (visible ++ s.provided) rest))

theorem Closed.mono {body : List Stmt} :
    ∀ {v w : List Mention}, Closed v body → v ⊆ w → Closed w body := by
  induction body with
  | nil => exact fun _ _ => trivial
  | cons s rest ih =>
    intro v w h hvw
    constructor
    · exact List.Subset.trans h.1 hvw
    · exact ih h.2 (List.append_subset.2
        ⟨List.subset_append_of_subset_left _ hvw, List.subset_append_right _ _⟩)

theorem closed_append {a b : List Stmt} : ∀ {v : List Mention},
    Closed v (a ++ b) ↔ Closed v a ∧ Closed (v ++ a.flatMap Stmt.provided) b := by
  induction a with
  | nil => simp [Closed]
  | cons s rest ih =>
    intro v
    rw [List.cons_append, Closed, Closed, ih, and_assoc, List.flatMap_cons, List.append_assoc]

theorem closed_of_subset {body : List Stmt} : ∀ {v : List Mention},
    (∀ s ∈ body, s.mentions ⊆ v) → Closed v body := by
  induction body with
  | nil => exact fun _ => trivial
  | cons s rest ih =>
    intro v h
    obtain ⟨hs, hrest⟩ := List.forall_mem_cons.1 h
    exact ⟨hs, ih fun t ht => List.subset_append_of_subset_left _ (hrest t ht)⟩

/-- A statement of a closed body mentions only what the statements before it left visible. -/
theorem Closed.mentions_subset {v : List Mention} {before : List Stmt} {s : Stmt}
    {after : List Stmt} (h : Closed v (before ++ s :: after)) :
    s.mentions ⊆ v ++ before.flatMap Stmt.provided :=
  (closed_append.1 h).2.1

theorem Stmt.mem_provided {s : Stmt} {x : Mention} (h : x ∈ s.provided) :
    x.name ∈ s.declared ∧ x.member = none ∨ ∃ m, x.member = some m ∧ (x.name, m) ∈ s.assigned := by
  rcases List.mem_append.1 h with h | h
  · obtain ⟨n, hn, rfl⟩ := List.mem_map.1 h
    exact .inl ⟨hn, rfl⟩
  · obtain ⟨y, hy, rfl⟩ := List.mem_map.1 h
    exact .inr ⟨y.2, rfl, hy⟩

/-- All variables that a closed body mentions are declared: before the body or by an earlier
statement of it. -/
theorem Closed.name_mem {body : List Stmt} : ∀ {v : List Mention} {names : List Ident},
    Closed v body → (∀ x ∈ v, x.name ∈ names) →
      ∀ {before : List Stmt} {s : Stmt} {after : List Stmt}, body = before ++ s :: after →
        ∀ x ∈ s.mentions, x.name ∈ names ++ before.flatMap Stmt.declared := by
  induction body with
  | nil => exact fun _ _ _ _ _ h => absurd h.symm (by simp)
  | cons s₀ rest ih =>
    intro v names hclosed hv before s after hsplit x hx
    cases before with
    | nil =>
      obtain ⟨rfl, rfl⟩ := List.cons.inj hsplit
      exact List.mem_append_left _ (hv x (hclosed.1 hx))
    | cons s₁ before =>
      obtain ⟨rfl, hrest⟩ := List.cons.inj hsplit
      rw [List.flatMap_cons, ← List.append_assoc]
      refine ih hclosed.2 ?_ hrest x hx
      intro y hy
      rcases List.mem_append.1 hy with hy | hy
      · exact List.mem_append_left _ (hv y hy)
      · rcases Stmt.mem_provided hy with ⟨hdeclared, -⟩ | ⟨m, -, hm⟩
        · exact List.mem_append_right _ hdeclared
        · -- a statement that assigns a member mentions the variable, so it is already declared
          obtain ⟨e, rfl⟩ := Stmt.mem_assigned.1 hm
          exact List.mem_append_left _ (hv ⟨y.name, none⟩ (hclosed.1 List.mem_cons_self))

/-- The place of a variable in the order of declaration: parameter blocks, textures, parameters,
variables of a whole body, indirect samples, and then the variables of each stage. -/
def Ident.rank : Ident → Nat
  | scene | material | packet => 0
  | texture _ | sampler _ => 1
  | input | matrixArg | vectorArg | scalarArg => 2
  | indirect _ => 4
  | coordBase k | sample k | operand k _ => 5 + k
  | output | positionMatrix | transformed | register _ | coord => 3

/-- Different variables with ranks from `lo` to below `hi`. -/
structure Ranked (lo hi : Nat) (names : List Ident) : Prop where
  nodup : names.Nodup
  bounds : ∀ n ∈ names, lo ≤ n.rank ∧ n.rank < hi

namespace Ranked

variable {a b c : Nat} {l l' : List Ident}

theorem append (h : Ranked a b l) (h' : Ranked b c l') (hab : a ≤ b) (hbc : b ≤ c) :
    Ranked a c (l ++ l') := by
  constructor
  · refine List.nodup_append.2 ⟨h.nodup, h'.nodup, ?_⟩
    rintro n hn _ hn' rfl
    have := h.bounds n hn
    have := h'.bounds n hn'
    omega
  · intro n hn
    rcases List.mem_append.1 hn with hn | hn
    · have := h.bounds n hn
      omega
    · have := h'.bounds n hn
      omega

end Ranked

namespace Source

variable {src : Source} {f : FunctionDecl}

section Append

variable (a b : Source)

@[simp] theorem globals_append : globals (a ++ b) = globals a ++ globals b := by
  simp [globals]

@[simp] theorem functions_append : functions (a ++ b) = functions a ++ functions b := by
  simp [functions]

@[simp] theorem fields_append (t : StructName) : fields (a ++ b) t = fields a t ++ fields b t := by
  simp [fields]

end Append

theorem mem_ofVariable {v : Ident × Ty} {x : Mention} (h : x ∈ src.ofVariable v) :
    x.name = v.1 ∧ ∀ m, x.member = some m →
      ∃ t, v.2 = .struct t ∧ m ∈ (src.fields t).map (·.name) := by
  unfold ofVariable at h
  split at h
  · rename_i n t
    rcases List.mem_cons.1 h with rfl | h
    · exact ⟨rfl, fun m hm => absurd hm (by simp)⟩
    · obtain ⟨d, hd, rfl⟩ := List.mem_map.1 h
      refine ⟨rfl, fun m hm => ⟨t, rfl, ?_⟩⟩
      exact List.mem_map.2 ⟨d, hd, Option.some.inj hm⟩
  · rw [List.mem_singleton.1 h]
    exact ⟨rfl, fun m hm => absurd hm (by simp)⟩

theorem name_mem_of_mem_visible {x : Mention} (h : x ∈ src.visible f) :
    x.name ∈ src.outerNames f := by
  obtain ⟨v, hv, hx⟩ := List.mem_flatMap.1 h
  exact List.mem_map.2 ⟨v, hv, (mem_ofVariable hx).1.symm⟩

theorem count_text {α : Type} {text : α → String} (htext : Function.Injective text) {l : List α}
    (hl : l.Nodup) {x : α} (hx : x ∈ l) : (l.map text).count (text x) = 1 :=
  List.count_eq_one_of_mem (hl.map htext) (List.mem_map_of_mem hx)

/-- A source is well scoped if its bodies are closed, its names and bindings do not repeat, and
its bodies assign to members of their own variables only. -/
theorem wellScoped_of_closed
    (hclosed : ∀ f ∈ src.functions, Closed (src.visible f) f.body)
    (hassigned : ∀ f ∈ src.functions, ∀ s ∈ f.body, ∀ x ∈ s.assigned, x.1 ∉ src.outerNames f)
    (hnames : ∀ f ∈ src.functions, (src.outerNames f ++ src.locals).Nodup)
    (hfields : ∀ t, ((src.fields t).map (·.name)).Nodup)
    (hbindings : (src.globals.map fun g => (g.group, g.binding)).Nodup)
    (hf : f ∈ src.functions) : src.WellScoped := by
  have hdeclared : ∀ f ∈ src.functions, ∀ before s after, f.body = before ++ s :: after →
      ∀ x ∈ s.mentions, x.name ∈ src.outerNames f ++ before.flatMap Stmt.declared :=
    fun f hf _ _ _ hsplit =>
      (hclosed f hf).name_mem (fun _ hx => name_mem_of_mem_visible hx) hsplit
  -- what is read of a variable is a field of it, or was assigned
  have hread : ∀ f ∈ src.functions, ∀ before s after, f.body = before ++ s :: after →
      ∀ v m, ⟨v, some m⟩ ∈ s.mentions → ⟨v, some m⟩ ∈ src.visible f ∨
        ∃ e, Stmt.assign (.member v m) e ∈ before := by
    intro f hf before s after hsplit v m hm
    have hmem := Closed.mentions_subset (hsplit ▸ hclosed f hf) hm
    rcases List.mem_append.1 hmem with hmem | hmem
    · exact .inl hmem
    · obtain ⟨s', hs', hmem⟩ := List.mem_flatMap.1 hmem
      rcases Stmt.mem_provided hmem with ⟨-, hnone⟩ | ⟨m', hm', hassign⟩
      · exact absurd hnone (by simp)
      · obtain ⟨e, rfl⟩ := Stmt.mem_assigned.1 hassign
        obtain rfl := Option.some.inj hm'
        exact .inr ⟨e, hs'⟩
  have hall := hnames f hf
  refine ⟨?_, hbindings, ?_, hdeclared, ?_, ?_, ?_⟩
  · have hglobals : (src.globals.map (·.name)).Nodup := by
      have h := (List.nodup_append.1 hall).1
      rw [outerNames, outer, List.map_append, List.map_map] at h
      exact (List.nodup_append.1 h).1
    exact hglobals.map Ident.text_injective
  · exact (List.nodup_append.1 hall).2.1.map Ident.text_injective
  · intro f hf s hs x hx
    obtain ⟨before, after, hsplit⟩ := List.append_of_mem hs
    refine count_text Ident.text_injective (hnames f hf) ?_
    rcases List.mem_append.1 (hdeclared f hf before s after hsplit x hx) with h | h
    · exact List.mem_append_left _ h
    · obtain ⟨s', hs', h⟩ := List.mem_flatMap.1 h
      refine List.mem_append_right _ (List.mem_flatMap.2 ⟨f, hf, List.mem_flatMap.2 ⟨s', ?_, h⟩⟩)
      exact hsplit ▸ List.mem_append_left _ hs'
  · intro f hf v t hv s hs m hm
    obtain ⟨before, after, hsplit⟩ := List.append_of_mem hs
    have hfield : m ∈ (src.fields t).map (·.name) := by
      rcases hread f hf before s after hsplit v m hm with h | ⟨e, he⟩
      · obtain ⟨w, hw, h⟩ := List.mem_flatMap.1 h
        obtain ⟨hname, hmember⟩ := mem_ofVariable h
        obtain ⟨t', ht', hm'⟩ := hmember m rfl
        have hvw : (v, Ty.struct t) = w :=
          List.inj_on_of_nodup_map (List.nodup_append.1 (hnames f hf)).1 hv hw hname
        rw [← hvw] at ht'
        obtain rfl := Ty.struct.inj ht'
        exact hm'
      · have hs' : Stmt.assign (.member v m) e ∈ f.body := hsplit ▸ List.mem_append_left _ he
        exact absurd (List.mem_map_of_mem hv)
          (hassigned f hf _ hs' (v, m) (List.mem_singleton_self _))
    exact count_text Member.text_injective (hfields t) hfield
  · intro f hf before s after hsplit v m hm hv
    rcases hread f hf before s after hsplit v m hm with h | h
    · exact absurd (name_mem_of_mem_visible h) hv
    · exact h

/-- The same for a source whose names are in order. -/
theorem wellScoped_of_ranked {hi : Nat}
    (hclosed : ∀ f ∈ src.functions, Closed (src.visible f) f.body)
    (hassigned : ∀ f ∈ src.functions, ∀ s ∈ f.body, ∀ x ∈ s.assigned, 3 ≤ x.1.rank)
    (hglobals : Ranked 0 2 (src.globals.map (·.name)))
    (hparams : ∀ f ∈ src.functions, Ranked 2 3 (f.params.map Prod.fst))
    (hlocals : Ranked 3 hi src.locals) (hhi : 3 ≤ hi)
    (hfields : ∀ t, ((src.fields t).map (·.name)).Nodup)
    (hbindings : (src.globals.map fun g => (g.group, g.binding)).Nodup)
    (hf : f ∈ src.functions) : src.WellScoped := by
  have houter : ∀ f ∈ src.functions, Ranked 0 3 (src.outerNames f) := by
    intro f hf
    rw [outerNames, outer, List.map_append, List.map_map]
    exact hglobals.append (hparams f hf) (by decide) (by decide)
  refine wellScoped_of_closed hclosed ?_ ?_ hfields hbindings hf
  · intro f hf s hs x hx hmem
    have := hassigned f hf s hs x hx
    have := ((houter f hf).bounds _ hmem).2
    omega
  · intro f hf
    exact ((houter f hf).append hlocals (by decide) hhi).nodup

theorem mem_visible {v : Ident} {t : Ty} (hv : (v, t) ∈ src.outer f) :
    ⟨v, none⟩ ∈ src.visible f := by
  refine List.mem_flatMap.2 ⟨_, hv, ?_⟩
  cases t <;> exact List.mem_cons_self

theorem field_mem_visible {v : Ident} {t : StructName} {m : Member}
    (hv : (v, .struct t) ∈ src.outer f) (hm : m ∈ (src.fields t).map (·.name)) :
    ⟨v, some m⟩ ∈ src.visible f := by
  obtain ⟨d, hd, rfl⟩ := List.mem_map.1 hm
  exact List.mem_flatMap.2 ⟨_, hv, List.mem_cons_of_mem _ (List.mem_map.2 ⟨d, hd, rfl⟩)⟩

/-- A larger source makes more visible. -/
theorem visible_subset_append (a b : Source) (f : FunctionDecl) :
    visible a f ⊆ visible (a ++ b) f := by
  intro x hx
  obtain ⟨⟨n, t⟩, hv, hx⟩ := List.mem_flatMap.1 hx
  refine List.mem_flatMap.2 ⟨(n, t), ?_, ?_⟩
  · rw [outer, globals_append, List.map_append]
    rcases List.mem_append.1 hv with hv | hv
    · exact List.mem_append_left _ (List.mem_append_left _ hv)
    · exact List.mem_append_right _ hv
  · cases t with
    | struct t =>
      rw [ofVariable, fields_append, List.map_append, ← List.cons_append]
      exact List.mem_append_left _ hx
    | _ => exact hx

end Source
end Shader
end FixedFunction
