import FieldGraft.Completion
import Mathlib.Data.List.Basic

/-!
# Struct literals and patterns in a piece of code

Completion walks through code and changes struct literals and struct patterns. To speak about "every
literal of a scope" a second walk, `Code.nodes`, lists them from left to right, the outer ones
before the inner ones, each with the place where it stands (`Site`): the module scope around it, and
what `Self` means there. Structs declared inside bodies are listed as well.

* `Code.nodes_complete` — the nodes of completed code are the completed nodes, one for one. So what
  completion does to code is known from what it does to a single node, `CodeNode.complete`.
* `Code.complete_eq_self` — code in which no node means a struct with new fields is not changed.

Modules inside a body, and the attributes of modules, belong to no scope that completion enters;
their nodes have no scope.
-/

namespace FieldGraft

/-- Where a piece of code stands. -/
structure Site where
  /-- The path of the module scope, if completion enters the place. -/
  scope : Option (List String)
  /-- The path that `Self` stands for. -/
  selfTy : Option String := none
deriving DecidableEq

/-- A construct in code that has to do with the fields of a struct. -/
inductive NodeForm where
  | literal (path : Path) (members : List Member) (trailing : Bool) (rest : List Code)
  | pattern (path : Path) (members : List Member) (trailing : Bool) (rest : List Code)
  /-- A struct declared inside a body. -/
  | declaration (name : Word) (body : StructBody)

/-- Such a construct at its place. -/
structure CodeNode where
  site : Site
  form : NodeForm

/-- The node in a place that completion does not enter. -/
def CodeNode.shut (n : CodeNode) : CodeNode :=
  { n with site := { n.site with scope := none } }

/-! ### The walk -/

mutual

/-- The nodes in a piece of code. -/
def Code.nodes (site : Site) : Code → List CodeNode
  | .tree _ => []
  | .op _ _ => []
  | .group _ _ parts => Code.nodesList site parts
  | .node _ parts => Code.nodesList site parts
  | .angled _ lead members _ => Code.nodesList site lead ++ Code.nodesList site members
  | .path p => p.nodes site
  | .attr a => a.nodes site
  | .structLit p ms trailing rest =>
    ⟨site, .literal p ms trailing rest⟩ ::
      (p.nodes site ++ Member.nodesList site ms ++ Code.nodesList site rest)
  | .structPat p ms trailing rest =>
    ⟨site, .pattern p ms trailing rest⟩ ::
      (p.nodes site ++ Member.nodesList site ms ++ Code.nodesList site rest)
  | .fn lead _ generics params _ output tail =>
    Code.nodesList site lead ++ Code.nodesList site generics ++ Param.nodesList site params ++
      Code.nodesList site output ++ Code.nodesList site tail
  | .item i => i.nodes site

/-- The nodes in a list of pieces. -/
def Code.nodesList (site : Site) : List Code → List CodeNode
  | [] => []
  | c :: cs => c.nodes site ++ Code.nodesList site cs

/-- The nodes in a path. -/
def Path.nodes (site : Site) : Path → List CodeNode
  | .named _ segments => Segment.nodesList site segments
  | .qualified parts => Code.nodesList site parts

/-- The nodes in a path segment. -/
def Segment.nodes (site : Site) : Segment → List CodeNode
  | .mk _ args => Code.nodesList site args

/-- The nodes in path segments. -/
def Segment.nodesList (site : Site) : List Segment → List CodeNode
  | [] => []
  | x :: xs => x.nodes site ++ Segment.nodesList site xs

/-- The nodes in a member. -/
def Member.nodes (site : Site) : Member → List CodeNode
  | .mk lead _ value => Code.nodesList site lead ++ Code.nodesList site value

/-- The nodes in members. -/
def Member.nodesList (site : Site) : List Member → List CodeNode
  | [] => []
  | m :: ms => m.nodes site ++ Member.nodesList site ms

/-- The nodes in a parameter. -/
def Param.nodes (site : Site) : Param → List CodeNode
  | .mk _ parts => Code.nodesList site parts

/-- The nodes in parameters. -/
def Param.nodesList (site : Site) : List Param → List CodeNode
  | [] => []
  | p :: ps => p.nodes site ++ Param.nodesList site ps

/-- The nodes in an attribute. -/
def Attribute.nodes (site : Site) : Attribute → List CodeNode
  | .mk _ _ _ args => args.nodes site

/-- The nodes in attributes. -/
def Attribute.nodesList (site : Site) : List Attribute → List CodeNode
  | [] => []
  | a :: as => a.nodes site ++ Attribute.nodesList site as

/-- The nodes in the value of an attribute; a token list is not read. -/
def AttributeArgs.nodes (site : Site) : AttributeArgs → List CodeNode
  | .empty => []
  | .list _ _ => []
  | .value v => v.nodes site

/-- The nodes in a visibility. -/
def Visibility.nodes (site : Site) : Visibility → List CodeNode
  | .inherited => []
  | .exported => []
  | .restricted parts => Code.nodesList site parts

/-- The nodes in a field declaration. -/
def FieldDef.nodes (site : Site) : FieldDef → List CodeNode
  | .mk attrs vis _ ty => Attribute.nodesList site attrs ++ vis.nodes site ++ ty.nodes site

/-- The nodes in field declarations. -/
def FieldDef.nodesList (site : Site) : List FieldDef → List CodeNode
  | [] => []
  | f :: fs => f.nodes site ++ FieldDef.nodesList site fs

/-- The nodes in a struct body. -/
def StructBody.nodes (site : Site) : StructBody → List CodeNode
  | .named clause fields _ => Code.nodesList site clause ++ FieldDef.nodesList site fields
  | .tuple fields clause => fields.nodes site ++ Code.nodesList site clause
  | .unit clause => Code.nodesList site clause

/-- The nodes in the trait of an `impl` block. -/
def TraitRef.nodes (site : Site) : TraitRef → List CodeNode
  | .inherent => []
  | .of _ path => path.nodes site

/-- The nodes in an item. -/
def Item.nodes (site : Site) : Item → List CodeNode
  | .struct attrs vis name generics body =>
    ⟨site, .declaration name body⟩ ::
      (Attribute.nodesList site attrs ++ vis.nodes site ++ Code.nodesList site generics ++
        body.nodes site)
  | .nominal _ attrs lead _ tail =>
    Attribute.nodesList site attrs ++ Code.nodesList site lead ++ Code.nodesList site tail
  | .use attrs vis _ _ => Attribute.nodesList site attrs ++ vis.nodes site
  | .module attrs lead _ inner items =>
    (Attribute.nodesList site attrs ++ Code.nodesList site lead ++
      Attribute.nodesList site inner ++ Item.nodesList site items).map CodeNode.shut
  | .impl attrs lead trait selfTy clause inner members =>
    let site' : Site := { site with selfTy := selfTy.pathText? }
    Attribute.nodesList site' attrs ++ Code.nodesList site' lead ++ trait.nodes site' ++
      selfTy.nodes site' ++ Code.nodesList site' clause ++ Attribute.nodesList site' inner ++
      Code.nodesList site' members
  | .other .moduleDecl parts => (Code.nodesList site parts).map CodeNode.shut
  | .other _ parts => Code.nodesList site parts

/-- The nodes in a list of items. -/
def Item.nodesList (site : Site) : List Item → List CodeNode
  | [] => []
  | i :: is => i.nodes site ++ Item.nodesList site is

end

theorem Item.nodes_other (site : Site) {shape : Shape} (h : shape ≠ .moduleDecl)
    (parts : List Code) : (Item.other shape parts).nodes site = Code.nodesList site parts := by
  rw [Item.nodes]
  exact h

theorem Item.complete_other (s : Completion) {shape : Shape} (h : shape ≠ .moduleDecl)
    (parts : List Code) :
    (Item.other shape parts).complete s = .other shape (Code.completeList s parts) := by
  rw [Item.complete]
  exact h

/-! ### Completing one node -/

namespace Completion

/-- The members of a completed literal, and whether a comma ends them. -/
def fill (s : Completion) (p : Path) (ms : List Member) (trailing : Bool) (rest : List Code) :
    List Member × Bool :=
  match rest, s.target? p with
  | [], some fields => fields.foldl addDefault (ms, trailing)
  | _, _ => (ms, trailing)

/-- The `..` of a completed pattern, and whether a comma precedes it. -/
def cover (s : Completion) (p : Path) (ms : List Member) (trailing : Bool) (rest : List Code) :
    Bool × List Code :=
  match rest, s.target? p with
  | [], some fields =>
    if fields.all (fun f => ms.any (names f)) then (trailing, [])
    else (!ms.isEmpty, [.op {} ".."])
  | _, _ => (trailing, rest)

theorem literal_eq (s : Completion) (p : Path) (ms : List Member) (trailing : Bool)
    (rest : List Code) :
    s.literal p ms trailing rest =
      .structLit p (s.fill p ms trailing rest).1 (s.fill p ms trailing rest).2 rest := by
  unfold literal fill
  cases rest with
  | nil => cases s.target? p <;> rfl
  | cons c cs => rfl

theorem pattern_eq (s : Completion) (p : Path) (ms : List Member) (trailing : Bool)
    (rest : List Code) :
    s.pattern p ms trailing rest =
      .structPat p ms (s.cover p ms trailing rest).1 (s.cover p ms trailing rest).2 := by
  unfold pattern cover
  cases rest with
  | nil =>
    cases s.target? p with
    | none => rfl
    | some fields => simp only; split <;> rfl
  | cons c cs => rfl

theorem literal_eq_self {s : Completion} {p : Path} (h : s.target? p = none) (ms : List Member)
    (trailing : Bool) (rest : List Code) :
    s.literal p ms trailing rest = .structLit p ms trailing rest := by
  unfold literal
  rw [h]
  cases rest <;> rfl

theorem pattern_eq_self {s : Completion} {p : Path} (h : s.target? p = none) (ms : List Member)
    (trailing : Bool) (rest : List Code) :
    s.pattern p ms trailing rest = .structPat p ms trailing rest := by
  unfold pattern
  rw [h]
  cases rest <;> rfl

end Completion

/-- A construct with its literal or pattern completed, after what is inside it. -/
def NodeForm.complete (s : Completion) : NodeForm → NodeForm
  | .literal p ms trailing rest =>
    let filled := s.fill (p.complete s) (Member.completeList s ms) trailing
      (Code.completeList s rest)
    .literal (p.complete s) filled.1 filled.2 (Code.completeList s rest)
  | .pattern p ms trailing rest =>
    let covered := s.cover (p.complete s) (Member.completeList s ms) trailing
      (Code.completeList s rest)
    .pattern (p.complete s) (Member.completeList s ms) covered.1 covered.2
  | .declaration name body => .declaration name (body.complete s)

/-- The struct that the path of a literal or pattern means, by the fields that it received. -/
def NodeForm.target? (s : Completion) : NodeForm → Option (List String)
  | .literal p _ _ _ => s.target? p
  | .pattern p _ _ _ => s.target? p
  | .declaration _ _ => none

namespace CodeNode

/-- The completion that runs at the node, given what the structs of its scope received. -/
def completion (received : List String → Received) (n : CodeNode) : Completion :=
  ⟨received (n.site.scope.getD []), n.site.selfTy⟩

/-- What the struct that the node is about has received, if completion enters the place. -/
def target? (received : List String → Received) (n : CodeNode) : Option (List String) :=
  match n.site.scope with
  | some _ => n.form.target? (n.completion received)
  | none => none

/-- The node after completion; `received` says what the structs of each scope received. -/
def complete (received : List String → Received) (n : CodeNode) : CodeNode :=
  match n.site.scope with
  | some _ => { n with form := n.form.complete (n.completion received) }
  | none => n

theorem map_complete_shut (received : List String → Received) (ns : List CodeNode) :
    (ns.map shut).map (complete received) = ns.map shut := by
  rw [List.map_map]
  rfl

end CodeNode

/-! ### What completion keeps

Completion changes what is inside a path, an attribute or a member, but neither the names of a path
nor those of fields and members.
-/

theorem Segment.map_name_completeList (s : Completion) (xs : List Segment) :
    (Segment.completeList s xs).map (fun x => x.name.text) = xs.map (fun x => x.name.text) := by
  induction xs with
  | nil => rfl
  | cons x xs ih =>
    obtain ⟨name, args⟩ := x
    rw [Segment.completeList, List.map_cons, List.map_cons, ih]
    rfl

@[simp] theorem Path.names?_complete (s : Completion) (p : Path) :
    (p.complete s).names? = p.names? := by
  cases p with
  | named root segments =>
    simp only [Path.complete, Path.names?, Segment.map_name_completeList]
  | qualified parts => rfl

/-- What `Self` stands for is the same after completion. -/
theorem Code.pathText?_complete (s : Completion) (c : Code) :
    (c.complete s).pathText? = c.pathText? := by
  cases c with
  | path p => simp only [Code.complete, Code.pathText?, Path.names?_complete]
  | structLit p ms trailing rest => rw [Code.complete, Completion.literal_eq]; rfl
  | structPat p ms trailing rest => rw [Code.complete, Completion.pattern_eq]; rfl
  | _ => rfl

/-- Which struct a path means does not depend on what is inside the path. -/
@[simp] theorem Completion.target?_complete (s s' : Completion) (p : Path) :
    s.target? (p.complete s') = s.target? p := by
  cases p with
  | named root segments =>
    cases root with
    | none => simp only [Path.complete, target?, Segment.map_name_completeList]
    | some pos => rfl
  | qualified parts => rfl

@[simp] theorem Completion.names_complete (s : Completion) (field : String) (m : Member) :
    names field (m.complete s) = names field m := by
  obtain ⟨lead, name, value⟩ := m
  cases name <;> rfl

theorem Completion.any_names_completeList (s : Completion) (field : String) (ms : List Member) :
    (Member.completeList s ms).any (names field) = ms.any (names field) := by
  induction ms with
  | nil => rfl
  | cons m ms ih => rw [Member.completeList, List.any_cons, List.any_cons, ih, names_complete]

/-! ### What completion adds holds no nodes -/

theorem Member.nodesList_append (site : Site) (ms ms' : List Member) :
    Member.nodesList site (ms ++ ms') =
      Member.nodesList site ms ++ Member.nodesList site ms' := by
  induction ms with
  | nil => rfl
  | cons m ms ih => simp only [List.cons_append, Member.nodesList, ih, List.append_assoc]

theorem Completion.nodes_defaultMember (site : Site) (field : String) :
    (defaultMember field).nodes site = [] := rfl

theorem Completion.nodesList_foldl_addDefault (site : Site) (fields : List String)
    (ms : List Member × Bool) :
    Member.nodesList site (fields.foldl addDefault ms).1 = Member.nodesList site ms.1 := by
  induction fields generalizing ms with
  | nil => rfl
  | cons field fields ih =>
    rw [List.foldl_cons, ih]
    unfold addDefault
    split
    · rfl
    · -- the member that is added holds a call and no nodes
      rw [Member.nodesList_append, Member.nodesList, nodes_defaultMember, Member.nodesList,
        List.append_nil, List.append_nil]

theorem Completion.nodesList_fill (s : Completion) (site : Site) (p : Path) (ms : List Member)
    (trailing : Bool) (rest : List Code) :
    Member.nodesList site (s.fill p ms trailing rest).1 = Member.nodesList site ms := by
  unfold fill
  split
  · exact nodesList_foldl_addDefault site _ _
  · rfl

/-- A pattern gains a `..` only if it had none. -/
theorem Completion.nodesList_cover (s : Completion) (site : Site) (p : Path) (ms : List Member)
    (trailing : Bool) (rest : List Code) :
    Code.nodesList site (s.cover p ms trailing rest).2 = Code.nodesList site rest := by
  unfold cover
  split
  · split <;> rfl
  · rfl

/-! ### Completion, node by node -/

section NodesComplete

variable (received : List String → Received) (path : List String)

mutual

/-- **The nodes of completed code are the completed nodes.** -/
theorem Code.nodes_complete (self : Option String) :
    ∀ c : Code, (c.complete ⟨received path, self⟩).nodes ⟨some path, self⟩ =
      (c.nodes ⟨some path, self⟩).map (CodeNode.complete received)
  | .tree _ => rfl
  | .op _ _ => rfl
  | .group _ _ parts => by
    simp only [Code.complete, Code.nodes, Code.nodesList_complete self parts]
  | .node _ parts => by
    simp only [Code.complete, Code.nodes, Code.nodesList_complete self parts]
  | .angled _ lead members _ => by
    simp only [Code.complete, Code.nodes, List.map_append, Code.nodesList_complete self lead,
      Code.nodesList_complete self members]
  | .path p => by
    simp only [Code.complete, Code.nodes, Path.nodes_complete self p]
  | .attr a => by
    simp only [Code.complete, Code.nodes, Attribute.nodes_complete self a]
  | .structLit p ms trailing rest => by
    -- the literal itself is the first node; the members it gains hold none
    simp only [Code.complete, Completion.literal_eq, Code.nodes, Completion.nodesList_fill,
      List.map_cons, List.map_append, Path.nodes_complete self p,
      Member.nodesList_complete self ms, Code.nodesList_complete self rest]
    rfl
  | .structPat p ms trailing rest => by
    -- the pattern itself is the first node; a `..` that it gains holds none
    simp only [Code.complete, Completion.pattern_eq, Code.nodes, Completion.nodesList_cover,
      List.map_cons, List.map_append, Path.nodes_complete self p,
      Member.nodesList_complete self ms, Code.nodesList_complete self rest]
    rfl
  | .fn lead _ generics params _ output tail => by
    simp only [Code.complete, Code.nodes, List.map_append, Code.nodesList_complete self lead,
      Code.nodesList_complete self generics, Param.nodesList_complete self params,
      Code.nodesList_complete self output, Code.nodesList_complete self tail]
  | .item i => by
    simp only [Code.complete, Code.nodes, Item.nodes_complete self i]

theorem Code.nodesList_complete (self : Option String) :
    ∀ cs : List Code,
      Code.nodesList ⟨some path, self⟩ (Code.completeList ⟨received path, self⟩ cs) =
        (Code.nodesList ⟨some path, self⟩ cs).map (CodeNode.complete received)
  | [] => rfl
  | c :: cs => by
    simp only [Code.completeList, Code.nodesList, List.map_append, Code.nodes_complete self c,
      Code.nodesList_complete self cs]

theorem Path.nodes_complete (self : Option String) :
    ∀ p : Path, (p.complete ⟨received path, self⟩).nodes ⟨some path, self⟩ =
      (p.nodes ⟨some path, self⟩).map (CodeNode.complete received)
  | .named _ segments => by
    simp only [Path.complete, Path.nodes, Segment.nodesList_complete self segments]
  | .qualified parts => by
    simp only [Path.complete, Path.nodes, Code.nodesList_complete self parts]

theorem Segment.nodes_complete (self : Option String) :
    ∀ x : Segment, (x.complete ⟨received path, self⟩).nodes ⟨some path, self⟩ =
      (x.nodes ⟨some path, self⟩).map (CodeNode.complete received)
  | .mk _ args => by
    simp only [Segment.complete, Segment.nodes, Code.nodesList_complete self args]

theorem Segment.nodesList_complete (self : Option String) :
    ∀ xs : List Segment,
      Segment.nodesList ⟨some path, self⟩ (Segment.completeList ⟨received path, self⟩ xs) =
        (Segment.nodesList ⟨some path, self⟩ xs).map (CodeNode.complete received)
  | [] => rfl
  | x :: xs => by
    simp only [Segment.completeList, Segment.nodesList, List.map_append,
      Segment.nodes_complete self x, Segment.nodesList_complete self xs]

theorem Member.nodes_complete (self : Option String) :
    ∀ m : Member, (m.complete ⟨received path, self⟩).nodes ⟨some path, self⟩ =
      (m.nodes ⟨some path, self⟩).map (CodeNode.complete received)
  | .mk lead _ value => by
    simp only [Member.complete, Member.nodes, List.map_append,
      Code.nodesList_complete self lead, Code.nodesList_complete self value]

theorem Member.nodesList_complete (self : Option String) :
    ∀ ms : List Member,
      Member.nodesList ⟨some path, self⟩ (Member.completeList ⟨received path, self⟩ ms) =
        (Member.nodesList ⟨some path, self⟩ ms).map (CodeNode.complete received)
  | [] => rfl
  | m :: ms => by
    simp only [Member.completeList, Member.nodesList, List.map_append,
      Member.nodes_complete self m, Member.nodesList_complete self ms]

theorem Param.nodes_complete (self : Option String) :
    ∀ p : Param, (p.complete ⟨received path, self⟩).nodes ⟨some path, self⟩ =
      (p.nodes ⟨some path, self⟩).map (CodeNode.complete received)
  | .mk _ parts => by
    simp only [Param.complete, Param.nodes, Code.nodesList_complete self parts]

theorem Param.nodesList_complete (self : Option String) :
    ∀ ps : List Param,
      Param.nodesList ⟨some path, self⟩ (Param.completeList ⟨received path, self⟩ ps) =
        (Param.nodesList ⟨some path, self⟩ ps).map (CodeNode.complete received)
  | [] => rfl
  | p :: ps => by
    simp only [Param.completeList, Param.nodesList, List.map_append,
      Param.nodes_complete self p, Param.nodesList_complete self ps]

theorem Attribute.nodes_complete (self : Option String) :
    ∀ a : Attribute, (a.complete ⟨received path, self⟩).nodes ⟨some path, self⟩ =
      (a.nodes ⟨some path, self⟩).map (CodeNode.complete received)
  | .mk _ _ _ args => by
    simp only [Attribute.complete, Attribute.nodes, AttributeArgs.nodes_complete self args]

theorem Attribute.nodesList_complete (self : Option String) :
    ∀ as : List Attribute,
      Attribute.nodesList ⟨some path, self⟩ (Attribute.completeList ⟨received path, self⟩ as) =
        (Attribute.nodesList ⟨some path, self⟩ as).map (CodeNode.complete received)
  | [] => rfl
  | a :: as => by
    simp only [Attribute.completeList, Attribute.nodesList, List.map_append,
      Attribute.nodes_complete self a, Attribute.nodesList_complete self as]

theorem AttributeArgs.nodes_complete (self : Option String) :
    ∀ a : AttributeArgs, (a.complete ⟨received path, self⟩).nodes ⟨some path, self⟩ =
      (a.nodes ⟨some path, self⟩).map (CodeNode.complete received)
  | .empty => rfl
  | .list _ _ => rfl
  | .value v => by
    simp only [AttributeArgs.complete, AttributeArgs.nodes, Code.nodes_complete self v]

theorem Visibility.nodes_complete (self : Option String) :
    ∀ v : Visibility, (v.complete ⟨received path, self⟩).nodes ⟨some path, self⟩ =
      (v.nodes ⟨some path, self⟩).map (CodeNode.complete received)
  | .inherited => rfl
  | .exported => rfl
  | .restricted parts => by
    simp only [Visibility.complete, Visibility.nodes, Code.nodesList_complete self parts]

theorem FieldDef.nodes_complete (self : Option String) :
    ∀ f : FieldDef, (f.complete ⟨received path, self⟩).nodes ⟨some path, self⟩ =
      (f.nodes ⟨some path, self⟩).map (CodeNode.complete received)
  | .mk attrs vis _ ty => by
    simp only [FieldDef.complete, FieldDef.nodes, List.map_append,
      Attribute.nodesList_complete self attrs, Visibility.nodes_complete self vis,
      Code.nodes_complete self ty]

theorem FieldDef.nodesList_complete (self : Option String) :
    ∀ fs : List FieldDef,
      FieldDef.nodesList ⟨some path, self⟩ (FieldDef.completeList ⟨received path, self⟩ fs) =
        (FieldDef.nodesList ⟨some path, self⟩ fs).map (CodeNode.complete received)
  | [] => rfl
  | f :: fs => by
    simp only [FieldDef.completeList, FieldDef.nodesList, List.map_append,
      FieldDef.nodes_complete self f, FieldDef.nodesList_complete self fs]

theorem StructBody.nodes_complete (self : Option String) :
    ∀ b : StructBody, (b.complete ⟨received path, self⟩).nodes ⟨some path, self⟩ =
      (b.nodes ⟨some path, self⟩).map (CodeNode.complete received)
  | .named clause fields _ => by
    simp only [StructBody.complete, StructBody.nodes, List.map_append,
      Code.nodesList_complete self clause, FieldDef.nodesList_complete self fields]
  | .tuple fields clause => by
    simp only [StructBody.complete, StructBody.nodes, List.map_append,
      Code.nodesList_complete self clause, Code.nodes_complete self fields]
  | .unit clause => by
    simp only [StructBody.complete, StructBody.nodes, Code.nodesList_complete self clause]

theorem TraitRef.nodes_complete (self : Option String) :
    ∀ t : TraitRef, (t.complete ⟨received path, self⟩).nodes ⟨some path, self⟩ =
      (t.nodes ⟨some path, self⟩).map (CodeNode.complete received)
  | .inherent => rfl
  | .of _ p => by
    simp only [TraitRef.complete, TraitRef.nodes, Path.nodes_complete self p]

theorem Item.nodes_complete (self : Option String) :
    ∀ i : Item, (i.complete ⟨received path, self⟩).nodes ⟨some path, self⟩ =
      (i.nodes ⟨some path, self⟩).map (CodeNode.complete received)
  -- a struct inside a body is a node itself
  | .struct attrs vis name generics body => by
    simp only [Item.complete, Item.nodes, List.map_cons, List.map_append,
      Attribute.nodesList_complete self attrs, Visibility.nodes_complete self vis,
      Code.nodesList_complete self generics, StructBody.nodes_complete self body]
    rfl
  | .nominal _ attrs lead _ tail => by
    simp only [Item.complete, Item.nodes, List.map_append,
      Attribute.nodesList_complete self attrs, Code.nodesList_complete self lead,
      Code.nodesList_complete self tail]
  | .use attrs vis _ _ => by
    simp only [Item.complete, Item.nodes, List.map_append,
      Attribute.nodesList_complete self attrs, Visibility.nodes_complete self vis]
  -- an inline module is closed, on both sides
  | .module _ _ _ _ _ => by
    simp only [Item.complete, Item.nodes, CodeNode.map_complete_shut]
  | .impl attrs lead trait selfTy clause inner members => by
    -- `Self` is the self type as it was written, so the inner site is the same on both sides
    let self' := selfTy.pathText?
    simp only [Item.complete, Item.nodes, List.map_append, Code.pathText?_complete,
      Attribute.nodesList_complete self' attrs, Code.nodesList_complete self' lead,
      TraitRef.nodes_complete self' trait, Code.nodes_complete self' selfTy,
      Code.nodesList_complete self' clause, Attribute.nodesList_complete self' inner,
      Code.nodesList_complete self' members, self']
  | .other shape parts => by
    -- so is one that is declared elsewhere
    by_cases hshape : shape = .moduleDecl
    · subst hshape
      simp only [Item.complete, Item.nodes, CodeNode.map_complete_shut]
    · rw [Item.complete_other _ hshape, Item.nodes_other _ hshape, Item.nodes_other _ hshape,
        Code.nodesList_complete self parts]

end

/-- None of the nodes means a struct with new fields. -/
def Quiet (ns : List CodeNode) : Prop :=
  ∀ n ∈ ns, n.target? received = none

theorem quiet_append {ns ns' : List CodeNode} :
    Quiet received (ns ++ ns') ↔ Quiet received ns ∧ Quiet received ns' := by
  simp only [Quiet, List.mem_append, or_imp, forall_and]

theorem quiet_cons {n : CodeNode} {ns : List CodeNode} :
    Quiet received (n :: ns) ↔ n.target? received = none ∧ Quiet received ns := by
  simp only [Quiet, List.mem_cons, or_imp, forall_and, forall_eq]

mutual

/-- **Completion leaves all else alone**: code in which no literal or pattern means a struct with
new fields stays as it is. -/
theorem Code.complete_eq_self (self : Option String) :
    ∀ c : Code, Quiet received (c.nodes ⟨some path, self⟩) →
      c.complete ⟨received path, self⟩ = c
  | .tree _, _ => rfl
  | .op _ _, _ => rfl
  | .group _ _ parts, h => by
    rw [Code.complete, Code.completeList_eq_self self parts h]
  | .node _ parts, h => by
    rw [Code.complete, Code.completeList_eq_self self parts h]
  | .angled _ lead members _, h => by
    simp only [Code.nodes, quiet_append] at h
    rw [Code.complete, Code.completeList_eq_self self lead h.1,
      Code.completeList_eq_self self members h.2]
  | .path p, h => by
    rw [Code.complete, Path.complete_eq_self self p h]
  | .attr a, h => by
    rw [Code.complete, Attribute.complete_eq_self self a h]
  -- the literal is one of the nodes, so its path finds nothing
  | .structLit p ms trailing rest, h => by
    simp only [Code.nodes, quiet_cons, quiet_append] at h
    obtain ⟨htarget, ⟨hp, hms⟩, hrest⟩ := h
    have htarget' : (⟨received path, self⟩ : Completion).target? p = none := htarget
    rw [Code.complete, Path.complete_eq_self self p hp, Member.completeList_eq_self self ms hms,
      Code.completeList_eq_self self rest hrest, Completion.literal_eq_self htarget']
  -- so is the pattern
  | .structPat p ms trailing rest, h => by
    simp only [Code.nodes, quiet_cons, quiet_append] at h
    obtain ⟨htarget, ⟨hp, hms⟩, hrest⟩ := h
    have htarget' : (⟨received path, self⟩ : Completion).target? p = none := htarget
    rw [Code.complete, Path.complete_eq_self self p hp, Member.completeList_eq_self self ms hms,
      Code.completeList_eq_self self rest hrest, Completion.pattern_eq_self htarget']
  | .fn lead _ generics params _ output tail, h => by
    simp only [Code.nodes, quiet_append] at h
    obtain ⟨⟨⟨⟨hlead, hgenerics⟩, hparams⟩, houtput⟩, htail⟩ := h
    rw [Code.complete, Code.completeList_eq_self self lead hlead,
      Code.completeList_eq_self self generics hgenerics,
      Param.completeList_eq_self self params hparams,
      Code.completeList_eq_self self output houtput, Code.completeList_eq_self self tail htail]
  | .item i, h => by
    rw [Code.complete, Item.complete_eq_self self i h]

theorem Path.complete_eq_self (self : Option String) :
    ∀ p : Path, Quiet received (p.nodes ⟨some path, self⟩) →
      p.complete ⟨received path, self⟩ = p
  | .named _ segments, h => by
    rw [Path.complete, Segment.completeList_eq_self self segments h]
  | .qualified parts, h => by
    rw [Path.complete, Code.completeList_eq_self self parts h]

theorem Segment.complete_eq_self (self : Option String) :
    ∀ x : Segment, Quiet received (x.nodes ⟨some path, self⟩) →
      x.complete ⟨received path, self⟩ = x
  | .mk _ args, h => by
    rw [Segment.complete, Code.completeList_eq_self self args h]

theorem Member.complete_eq_self (self : Option String) :
    ∀ m : Member, Quiet received (m.nodes ⟨some path, self⟩) →
      m.complete ⟨received path, self⟩ = m
  | .mk lead _ value, h => by
    simp only [Member.nodes, quiet_append] at h
    rw [Member.complete, Code.completeList_eq_self self lead h.1,
      Code.completeList_eq_self self value h.2]

theorem Param.complete_eq_self (self : Option String) :
    ∀ p : Param, Quiet received (p.nodes ⟨some path, self⟩) →
      p.complete ⟨received path, self⟩ = p
  | .mk _ parts, h => by
    rw [Param.complete, Code.completeList_eq_self self parts h]

theorem Attribute.complete_eq_self (self : Option String) :
    ∀ a : Attribute, Quiet received (a.nodes ⟨some path, self⟩) →
      a.complete ⟨received path, self⟩ = a
  | .mk _ _ _ args, h => by
    rw [Attribute.complete, AttributeArgs.complete_eq_self self args h]

theorem AttributeArgs.complete_eq_self (self : Option String) :
    ∀ a : AttributeArgs, Quiet received (a.nodes ⟨some path, self⟩) →
      a.complete ⟨received path, self⟩ = a
  | .empty, _ => rfl
  | .list _ _, _ => rfl
  | .value v, h => by
    rw [AttributeArgs.complete, Code.complete_eq_self self v h]

theorem Visibility.complete_eq_self (self : Option String) :
    ∀ v : Visibility, Quiet received (v.nodes ⟨some path, self⟩) →
      v.complete ⟨received path, self⟩ = v
  | .inherited, _ => rfl
  | .exported, _ => rfl
  | .restricted parts, h => by
    rw [Visibility.complete, Code.completeList_eq_self self parts h]

theorem FieldDef.complete_eq_self (self : Option String) :
    ∀ f : FieldDef, Quiet received (f.nodes ⟨some path, self⟩) →
      f.complete ⟨received path, self⟩ = f
  | .mk attrs vis _ ty, h => by
    simp only [FieldDef.nodes, quiet_append] at h
    rw [FieldDef.complete, Attribute.completeList_eq_self self attrs h.1.1,
      Visibility.complete_eq_self self vis h.1.2, Code.complete_eq_self self ty h.2]

theorem StructBody.complete_eq_self (self : Option String) :
    ∀ b : StructBody, Quiet received (b.nodes ⟨some path, self⟩) →
      b.complete ⟨received path, self⟩ = b
  | .named clause fields _, h => by
    simp only [StructBody.nodes, quiet_append] at h
    rw [StructBody.complete, Code.completeList_eq_self self clause h.1,
      FieldDef.completeList_eq_self self fields h.2]
  | .tuple fields clause, h => by
    simp only [StructBody.nodes, quiet_append] at h
    rw [StructBody.complete, Code.complete_eq_self self fields h.1,
      Code.completeList_eq_self self clause h.2]
  | .unit clause, h => by
    rw [StructBody.complete, Code.completeList_eq_self self clause h]

theorem TraitRef.complete_eq_self (self : Option String) :
    ∀ t : TraitRef, Quiet received (t.nodes ⟨some path, self⟩) →
      t.complete ⟨received path, self⟩ = t
  | .inherent, _ => rfl
  | .of _ p, h => by
    rw [TraitRef.complete, Path.complete_eq_self self p h]

theorem Item.complete_eq_self (self : Option String) :
    ∀ i : Item, Quiet received (i.nodes ⟨some path, self⟩) →
      i.complete ⟨received path, self⟩ = i
  -- the node of the declaration itself is left out: completion does not touch the name
  | .struct attrs vis name generics body, h => by
    simp only [Item.nodes, quiet_cons, quiet_append] at h
    obtain ⟨-, ⟨⟨hattrs, hvis⟩, hgenerics⟩, hbody⟩ := h
    rw [Item.complete, Attribute.completeList_eq_self self attrs hattrs,
      Visibility.complete_eq_self self vis hvis,
      Code.completeList_eq_self self generics hgenerics,
      StructBody.complete_eq_self self body hbody]
  | .nominal _ attrs lead _ tail, h => by
    simp only [Item.nodes, quiet_append] at h
    rw [Item.complete, Attribute.completeList_eq_self self attrs h.1.1,
      Code.completeList_eq_self self lead h.1.2, Code.completeList_eq_self self tail h.2]
  | .use attrs vis _ _, h => by
    simp only [Item.nodes, quiet_append] at h
    rw [Item.complete, Attribute.completeList_eq_self self attrs h.1,
      Visibility.complete_eq_self self vis h.2]
  | .module _ _ _ _ _, _ => by
    rw [Item.complete]
  -- inside the block `Self` stands for the self type
  | .impl attrs lead trait selfTy clause inner members, h => by
    simp only [Item.nodes, quiet_append] at h
    obtain ⟨⟨⟨⟨⟨⟨hattrs, hlead⟩, htrait⟩, hself⟩, hclause⟩, hinner⟩, hmembers⟩ := h
    simp only [Item.complete, Attribute.completeList_eq_self _ attrs hattrs,
      Code.completeList_eq_self _ lead hlead, TraitRef.complete_eq_self _ trait htrait,
      Code.complete_eq_self _ selfTy hself, Code.completeList_eq_self _ clause hclause,
      Attribute.completeList_eq_self _ inner hinner,
      Code.completeList_eq_self _ members hmembers]
  | .other shape parts, h => by
    by_cases hshape : shape = .moduleDecl
    · subst hshape
      rw [Item.complete]
    · rw [Item.nodes_other _ hshape] at h
      rw [Item.complete_other _ hshape, Code.completeList_eq_self self parts h]

theorem Code.completeList_eq_self (self : Option String) :
    ∀ cs : List Code, Quiet received (Code.nodesList ⟨some path, self⟩ cs) →
      Code.completeList ⟨received path, self⟩ cs = cs
  | [], _ => rfl
  | c :: cs, h => by
    simp only [Code.nodesList, quiet_append] at h
    rw [Code.completeList, Code.complete_eq_self self c h.1, Code.completeList_eq_self self cs h.2]

theorem Segment.completeList_eq_self (self : Option String) :
    ∀ xs : List Segment, Quiet received (Segment.nodesList ⟨some path, self⟩ xs) →
      Segment.completeList ⟨received path, self⟩ xs = xs
  | [], _ => rfl
  | x :: xs, h => by
    simp only [Segment.nodesList, quiet_append] at h
    rw [Segment.completeList, Segment.complete_eq_self self x h.1,
      Segment.completeList_eq_self self xs h.2]

theorem Member.completeList_eq_self (self : Option String) :
    ∀ ms : List Member, Quiet received (Member.nodesList ⟨some path, self⟩ ms) →
      Member.completeList ⟨received path, self⟩ ms = ms
  | [], _ => rfl
  | m :: ms, h => by
    simp only [Member.nodesList, quiet_append] at h
    rw [Member.completeList, Member.complete_eq_self self m h.1,
      Member.completeList_eq_self self ms h.2]

theorem Param.completeList_eq_self (self : Option String) :
    ∀ ps : List Param, Quiet received (Param.nodesList ⟨some path, self⟩ ps) →
      Param.completeList ⟨received path, self⟩ ps = ps
  | [], _ => rfl
  | p :: ps, h => by
    simp only [Param.nodesList, quiet_append] at h
    rw [Param.completeList, Param.complete_eq_self self p h.1,
      Param.completeList_eq_self self ps h.2]

theorem Attribute.completeList_eq_self (self : Option String) :
    ∀ as : List Attribute, Quiet received (Attribute.nodesList ⟨some path, self⟩ as) →
      Attribute.completeList ⟨received path, self⟩ as = as
  | [], _ => rfl
  | a :: as, h => by
    simp only [Attribute.nodesList, quiet_append] at h
    rw [Attribute.completeList, Attribute.complete_eq_self self a h.1,
      Attribute.completeList_eq_self self as h.2]

theorem FieldDef.completeList_eq_self (self : Option String) :
    ∀ fs : List FieldDef, Quiet received (FieldDef.nodesList ⟨some path, self⟩ fs) →
      FieldDef.completeList ⟨received path, self⟩ fs = fs
  | [], _ => rfl
  | f :: fs, h => by
    simp only [FieldDef.nodesList, quiet_append] at h
    rw [FieldDef.completeList, FieldDef.complete_eq_self self f h.1,
      FieldDef.completeList_eq_self self fs h.2]

end

end NodesComplete

end FieldGraft
