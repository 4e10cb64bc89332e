import FieldGraft.Proofs.NodeCompletion

/-!
# Literals and patterns in their surroundings

What a literal or pattern means depends on more than its scope. The walk `Code.placed` lists the
same nodes as `Code.nodes`, in the same order, and says of each what stands around it (`Context`):

* the self type of the `impl` block, as it is written;
* the structs that are declared by the blocks around it;
* whether it is what an assignment writes to. Such code is read like a pattern, part by part:
  parentheses, tuples, arrays, calls of tuple structs and struct literals hand this on to their
  parts, and nothing else does.

Completion looks at none of these but at the text of the self type. So the walk adds to what is
known of the nodes of a unit and takes nothing away: `Item.map_node_scopePlacedList`. A round
completes the nodes one by one, whatever stands around them (`Session.injectItems_placed`).
-/

namespace FieldGraft

/-! ### Contexts -/

/-- What stands around a piece of code. -/
structure Context where
  /-- The path of the module scope, if completion enters the place. -/
  scope : Option (List String)
  /-- The self type of the `impl` block. -/
  selfTy : Option Code := none
  /-- The structs declared by the blocks around the place. -/
  locals : List String := []
  /-- An assignment writes to the code. -/
  assigned : Bool := false

/-- The name of a struct that is declared here. -/
def Code.structName? : Code → Option String
  | .item (.struct _ _ name _ _) => some name.text
  | _ => none

namespace Context

/-- What completion sees of a context. -/
def site (ctx : Context) : Site :=
  ⟨ctx.scope, ctx.selfTy.bind Code.pathText?⟩

/-- Code that is read as it is, and not like a pattern. -/
def plain (ctx : Context) : Context :=
  { ctx with assigned := false }

/-- Between the delimiters around some parts: structs among the parts are known to all of them. -/
def within (ctx : Context) (parts : List Code) : Context :=
  { ctx with locals := parts.filterMap Code.structName? ++ ctx.locals }

/-- The first part of a construct. It is assigned to in an assignment, and is only the name of what
is taken apart in a call. -/
def first (ctx : Context) (shape : Shape) : Context :=
  { ctx with
    assigned := match shape with
      | .assign => true
      | .paren | .tuple | .array | .attributed => ctx.assigned
      | _ => false }

/-- The other parts of a construct. -/
def later (ctx : Context) (shape : Shape) : Context :=
  { ctx with
    assigned := match shape with
      | .paren | .tuple | .array | .attributed | .call => ctx.assigned
      | _ => false }

@[simp] theorem site_plain (ctx : Context) : ctx.plain.site = ctx.site := rfl

@[simp] theorem site_within (ctx : Context) (parts : List Code) :
    (ctx.within parts).site = ctx.site := rfl

@[simp] theorem site_first (ctx : Context) (shape : Shape) :
    (ctx.first shape).site = ctx.site := rfl

@[simp] theorem site_later (ctx : Context) (shape : Shape) :
    (ctx.later shape).site = ctx.site := rfl

end Context

/-- A literal, pattern or inner struct with what stands around it. -/
structure PlacedNode where
  context : Context
  form : NodeForm

namespace PlacedNode

/-- The node as completion sees it. -/
def node (n : PlacedNode) : CodeNode :=
  ⟨n.context.site, n.form⟩

/-- The node in a place that completion does not enter. -/
def shut (n : PlacedNode) : PlacedNode :=
  { n with context := { n.context with scope := none } }

theorem map_node_shut (ns : List PlacedNode) :
    (ns.map shut).map node = (ns.map node).map CodeNode.shut := by
  rw [List.map_map, List.map_map]
  rfl

end PlacedNode

/-! ### The walk -/

mutual

/-- The nodes in a piece of code, each with its context. -/
def Code.placed (ctx : Context) : Code → List PlacedNode
  | .tree _ => []
  | .op _ _ => []
  | .group _ _ parts => Code.placedList (ctx.within parts) parts
  | .node shape parts => Code.placedParts (ctx.first shape) (ctx.later shape) parts
  | .angled _ lead members _ =>
    Code.placedList ctx.plain lead ++ Code.placedList ctx.plain members
  | .path p => p.placed ctx.plain
  | .attr a => a.placed ctx.plain
  | .structLit p ms trailing rest =>
    ⟨ctx, .literal p ms trailing rest⟩ ::
      (p.placed ctx.plain ++ Member.placedList ctx ms ++ Code.placedList ctx.plain rest)
  | .structPat p ms trailing rest =>
    ⟨ctx.plain, .pattern p ms trailing rest⟩ ::
      (p.placed ctx.plain ++ Member.placedList ctx.plain ms ++ Code.placedList ctx.plain rest)
  | .fn lead _ generics params _ output tail =>
    Code.placedList ctx.plain lead ++ Code.placedList ctx.plain generics ++
      Param.placedList ctx.plain params ++ Code.placedList ctx.plain output ++
      Code.placedList ctx.plain tail
  | .item i => i.placed ctx.plain

/-- The nodes in the parts of a construct. -/
def Code.placedParts (first later : Context) : List Code → List PlacedNode
  | [] => []
  | c :: cs => c.placed first ++ Code.placedList later cs

/-- The nodes in a list of pieces. -/
def Code.placedList (ctx : Context) : List Code → List PlacedNode
  | [] => []
  | c :: cs => c.placed ctx ++ Code.placedList ctx cs

/-- The nodes in a path. -/
def Path.placed (ctx : Context) : Path → List PlacedNode
  | .named _ segments => Segment.placedList ctx segments
  | .qualified parts => Code.placedList ctx parts

/-- The nodes in a path segment. -/
def Segment.placed (ctx : Context) : Segment → List PlacedNode
  | .mk _ args => Code.placedList ctx args

/-- The nodes in path segments. -/
def Segment.placedList (ctx : Context) : List Segment → List PlacedNode
  | [] => []
  | x :: xs => x.placed ctx ++ Segment.placedList ctx xs

/-- The nodes in a member. If the struct is assigned to, so is the value of the member. -/
def Member.placed (ctx : Context) : Member → List PlacedNode
  | .mk lead _ value => Code.placedList ctx.plain lead ++ Code.placedList ctx value

/-- The nodes in members. -/
def Member.placedList (ctx : Context) : List Member → List PlacedNode
  | [] => []
  | m :: ms => m.placed ctx ++ Member.placedList ctx ms

/-- The nodes in a parameter. -/
def Param.placed (ctx : Context) : Param → List PlacedNode
  | .mk _ parts => Code.placedList ctx parts

/-- The nodes in parameters. -/
def Param.placedList (ctx : Context) : List Param → List PlacedNode
  | [] => []
  | p :: ps => p.placed ctx ++ Param.placedList ctx ps

/-- The nodes in an attribute. -/
def Attribute.placed (ctx : Context) : Attribute → List PlacedNode
  | .mk _ _ _ args => args.placed ctx

/-- The nodes in attributes. -/
def Attribute.placedList (ctx : Context) : List Attribute → List PlacedNode
  | [] => []
  | a :: as => a.placed ctx ++ Attribute.placedList ctx as

/-- The nodes in the value of an attribute. -/
def AttributeArgs.placed (ctx : Context) : AttributeArgs → List PlacedNode
  | .empty => []
  | .list _ _ => []
  | .value v => v.placed ctx

/-- The nodes in a visibility. -/
def Visibility.placed (ctx : Context) : Visibility → List PlacedNode
  | .inherited => []
  | .exported => []
  | .restricted parts => Code.placedList ctx parts

/-- The nodes in a field declaration. -/
def FieldDef.placed (ctx : Context) : FieldDef → List PlacedNode
  | .mk attrs vis _ ty => Attribute.placedList ctx attrs ++ vis.placed ctx ++ ty.placed ctx

/-- The nodes in field declarations. -/
def FieldDef.placedList (ctx : Context) : List FieldDef → List PlacedNode
  | [] => []
  | f :: fs => f.placed ctx ++ FieldDef.placedList ctx fs

/-- The nodes in a struct body. -/
def StructBody.placed (ctx : Context) : StructBody → List PlacedNode
  | .named clause fields _ => Code.placedList ctx clause ++ FieldDef.placedList ctx fields
  | .tuple fields clause => fields.placed ctx ++ Code.placedList ctx clause
  | .unit clause => Code.placedList ctx clause

/-- The nodes in the trait of an `impl` block. -/
def TraitRef.placed (ctx : Context) : TraitRef → List PlacedNode
  | .inherent => []
  | .of _ path => path.placed ctx

/-- The nodes in an item. -/
def Item.placed (ctx : Context) : Item → List PlacedNode
  | .struct attrs vis name generics body =>
    ⟨ctx, .declaration name body⟩ ::
      (Attribute.placedList ctx attrs ++ vis.placed ctx ++ Code.placedList ctx generics ++
        body.placed ctx)
  | .nominal _ attrs lead _ tail =>
    Attribute.placedList ctx attrs ++ Code.placedList ctx lead ++ Code.placedList ctx tail
  | .use attrs vis _ _ => Attribute.placedList ctx attrs ++ vis.placed ctx
  | .module attrs lead _ inner items =>
    (Attribute.placedList ctx attrs ++ Code.placedList ctx lead ++
      Attribute.placedList ctx inner ++ Item.placedList ctx items).map PlacedNode.shut
  | .impl attrs lead trait selfTy clause inner members =>
    let ctx' : Context := { ctx with selfTy := some selfTy }
    Attribute.placedList ctx' attrs ++ Code.placedList ctx' lead ++ trait.placed ctx' ++
      selfTy.placed ctx' ++ Code.placedList ctx' clause ++ Attribute.placedList ctx' inner ++
      Code.placedList ctx' members
  | .other .moduleDecl parts => (Code.placedList ctx parts).map PlacedNode.shut
  | .other _ parts => Code.placedList ctx parts

/-- The nodes in a list of items. -/
def Item.placedList (ctx : Context) : List Item → List PlacedNode
  | [] => []
  | i :: is => i.placed ctx ++ Item.placedList ctx is

end

/-! ### The walk lists the nodes -/

mutual

/-- **Contexts add to the nodes.** Without them, the walk lists the nodes of the code. -/
theorem Code.map_node_placed (ctx : Context) :
    ∀ c : Code, (c.placed ctx).map PlacedNode.node = c.nodes ctx.site
  | .tree _ => rfl
  | .op _ _ => rfl
  | .group _ _ parts => by
    -- a context differs from its site by what the walk adds, and the sites are the same
    rw [Code.placed, Code.nodes, Code.map_node_placedList (ctx.within parts) parts,
      Context.site_within]
  | .node shape parts => by
    rw [Code.placed, Code.nodes,
      Code.map_node_placedParts (ctx.site_first shape) (ctx.site_later shape) parts]
  | .angled _ lead members _ => by
    rw [Code.placed, Code.nodes, List.map_append, Code.map_node_placedList ctx.plain lead,
      Code.map_node_placedList ctx.plain members, Context.site_plain]
  | .path p => Path.map_node_placed ctx.plain p
  | .attr a => Attribute.map_node_placed ctx.plain a
  | .structLit p ms trailing rest => by
    -- the members of a literal are read in the context of the literal, which knows what it stands
    -- in
    rw [Code.placed, Code.nodes, List.map_cons, List.map_append, List.map_append,
      Path.map_node_placed ctx.plain p, Member.map_node_placedList ctx ms,
      Code.map_node_placedList ctx.plain rest]
    rfl
  | .structPat p ms trailing rest => by
    rw [Code.placed, Code.nodes, List.map_cons, List.map_append, List.map_append,
      Path.map_node_placed ctx.plain p, Member.map_node_placedList ctx.plain ms,
      Code.map_node_placedList ctx.plain rest]
    rfl
  | .fn lead _ generics params _ output tail => by
    simp only [Code.placed, Code.nodes, List.map_append, Code.map_node_placedList ctx.plain lead,
      Code.map_node_placedList ctx.plain generics, Param.map_node_placedList ctx.plain params,
      Code.map_node_placedList ctx.plain output, Code.map_node_placedList ctx.plain tail,
      Context.site_plain]
  | .item i => Item.map_node_placed ctx.plain i

theorem Code.map_node_placedParts {first later : Context} {site : Site} (hfirst : first.site = site)
    (hlater : later.site = site) :
    ∀ cs : List Code,
      (Code.placedParts first later cs).map PlacedNode.node = Code.nodesList site cs
  | [] => rfl
  | c :: cs => by
    rw [Code.placedParts, Code.nodesList, List.map_append, Code.map_node_placed first c,
      Code.map_node_placedList later cs, hfirst, hlater]

theorem Code.map_node_placedList (ctx : Context) :
    ∀ cs : List Code,
      (Code.placedList ctx cs).map PlacedNode.node = Code.nodesList ctx.site cs
  | [] => rfl
  | c :: cs => by
    rw [Code.placedList, Code.nodesList, List.map_append, Code.map_node_placed ctx c,
      Code.map_node_placedList ctx cs]

theorem Path.map_node_placed (ctx : Context) :
    ∀ p : Path, (p.placed ctx).map PlacedNode.node = p.nodes ctx.site
  | .named _ segments => Segment.map_node_placedList ctx segments
  | .qualified parts => Code.map_node_placedList ctx parts

theorem Segment.map_node_placed (ctx : Context) :
    ∀ x : Segment, (x.placed ctx).map PlacedNode.node = x.nodes ctx.site
  | .mk _ args => Code.map_node_placedList ctx args

theorem Segment.map_node_placedList (ctx : Context) :
    ∀ xs : List Segment,
      (Segment.placedList ctx xs).map PlacedNode.node = Segment.nodesList ctx.site xs
  | [] => rfl
  | x :: xs => by
    rw [Segment.placedList, Segment.nodesList, List.map_append, Segment.map_node_placed ctx x,
      Segment.map_node_placedList ctx xs]

theorem Member.map_node_placed (ctx : Context) :
    ∀ m : Member, (m.placed ctx).map PlacedNode.node = m.nodes ctx.site
  | .mk lead _ value => by
    rw [Member.placed, Member.nodes, List.map_append, Code.map_node_placedList ctx.plain lead,
      Code.map_node_placedList ctx value, Context.site_plain]

theorem Member.map_node_placedList (ctx : Context) :
    ∀ ms : List Member,
      (Member.placedList ctx ms).map PlacedNode.node = Member.nodesList ctx.site ms
  | [] => rfl
  | m :: ms => by
    rw [Member.placedList, Member.nodesList, List.map_append, Member.map_node_placed ctx m,
      Member.map_node_placedList ctx ms]

theorem Param.map_node_placed (ctx : Context) :
    ∀ p : Param, (p.placed ctx).map PlacedNode.node = p.nodes ctx.site
  | .mk _ parts => Code.map_node_placedList ctx parts

theorem Param.map_node_placedList (ctx : Context) :
    ∀ ps : List Param,
      (Param.placedList ctx ps).map PlacedNode.node = Param.nodesList ctx.site ps
  | [] => rfl
  | p :: ps => by
    rw [Param.placedList, Param.nodesList, List.map_append, Param.map_node_placed ctx p,
      Param.map_node_placedList ctx ps]

theorem Attribute.map_node_placed (ctx : Context) :
    ∀ a : Attribute, (a.placed ctx).map PlacedNode.node = a.nodes ctx.site
  | .mk _ _ _ args => AttributeArgs.map_node_placed ctx args

theorem Attribute.map_node_placedList (ctx : Context) :
    ∀ as : List Attribute,
      (Attribute.placedList ctx as).map PlacedNode.node = Attribute.nodesList ctx.site as
  | [] => rfl
  | a :: as => by
    rw [Attribute.placedList, Attribute.nodesList, List.map_append,
      Attribute.map_node_placed ctx a, Attribute.map_node_placedList ctx as]

theorem AttributeArgs.map_node_placed (ctx : Context) :
    ∀ a : AttributeArgs, (a.placed ctx).map PlacedNode.node = a.nodes ctx.site
  | .empty => rfl
  | .list _ _ => rfl
  | .value v => Code.map_node_placed ctx v

theorem Visibility.map_node_placed (ctx : Context) :
    ∀ v : Visibility, (v.placed ctx).map PlacedNode.node = v.nodes ctx.site
  | .inherited => rfl
  | .exported => rfl
  | .restricted parts => Code.map_node_placedList ctx parts

theorem FieldDef.map_node_placed (ctx : Context) :
    ∀ f : FieldDef, (f.placed ctx).map PlacedNode.node = f.nodes ctx.site
  | .mk attrs vis _ ty => by
    rw [FieldDef.placed, FieldDef.nodes, List.map_append, List.map_append,
      Attribute.map_node_placedList ctx attrs, Visibility.map_node_placed ctx vis,
      Code.map_node_placed ctx ty]

theorem FieldDef.map_node_placedList (ctx : Context) :
    ∀ fs : List FieldDef,
      (FieldDef.placedList ctx fs).map PlacedNode.node = FieldDef.nodesList ctx.site fs
  | [] => rfl
  | f :: fs => by
    rw [FieldDef.placedList, FieldDef.nodesList, List.map_append, FieldDef.map_node_placed ctx f,
      FieldDef.map_node_placedList ctx fs]

theorem StructBody.map_node_placed (ctx : Context) :
    ∀ b : StructBody, (b.placed ctx).map PlacedNode.node = b.nodes ctx.site
  | .named clause fields _ => by
    rw [StructBody.placed, StructBody.nodes, List.map_append, Code.map_node_placedList ctx clause,
      FieldDef.map_node_placedList ctx fields]
  | .tuple fields clause => by
    rw [StructBody.placed, StructBody.nodes, List.map_append, Code.map_node_placed ctx fields,
      Code.map_node_placedList ctx clause]
  | .unit clause => Code.map_node_placedList ctx clause

theorem TraitRef.map_node_placed (ctx : Context) :
    ∀ t : TraitRef, (t.placed ctx).map PlacedNode.node = t.nodes ctx.site
  | .inherent => rfl
  | .of _ p => Path.map_node_placed ctx p

theorem Item.map_node_placed (ctx : Context) :
    ∀ i : Item, (i.placed ctx).map PlacedNode.node = i.nodes ctx.site
  | .struct attrs vis name generics body => by
    -- outside bodies nothing is added to the context
    simp only [Item.placed, Item.nodes, List.map_cons, List.map_append,
      Attribute.map_node_placedList ctx attrs, Visibility.map_node_placed ctx vis,
      Code.map_node_placedList ctx generics, StructBody.map_node_placed ctx body]
    rfl
  | .nominal _ attrs lead _ tail => by
    simp only [Item.placed, Item.nodes, List.map_append, Attribute.map_node_placedList ctx attrs,
      Code.map_node_placedList ctx lead, Code.map_node_placedList ctx tail]
  | .use attrs vis _ _ => by
    simp only [Item.placed, Item.nodes, List.map_append, Attribute.map_node_placedList ctx attrs,
      Visibility.map_node_placed ctx vis]
  | .module attrs lead _ inner items => by
    simp only [Item.placed, Item.nodes, PlacedNode.map_node_shut, List.map_append,
      Attribute.map_node_placedList ctx attrs, Code.map_node_placedList ctx lead,
      Attribute.map_node_placedList ctx inner, Item.map_node_placedList ctx items]
  | .impl attrs lead trait selfTy clause inner members => by
    -- of the self type, completion sees the text
    let ctx' : Context := { ctx with selfTy := some selfTy }
    have hsite : ctx'.site = { ctx.site with selfTy := selfTy.pathText? } := rfl
    simp only [Item.placed, Item.nodes, List.map_append, ← hsite,
      Attribute.map_node_placedList ctx' attrs, Code.map_node_placedList ctx' lead,
      TraitRef.map_node_placed ctx' trait, Code.map_node_placed ctx' selfTy,
      Code.map_node_placedList ctx' clause, Attribute.map_node_placedList ctx' inner,
      Code.map_node_placedList ctx' members, ctx']
  | .other shape parts => by
    -- a module declared elsewhere is closed to completion, like an inline one
    by_cases hshape : shape = .moduleDecl
    · subst hshape
      rw [Item.placed, Item.nodes, PlacedNode.map_node_shut, Code.map_node_placedList ctx parts]
    · have hplaced : (Item.other shape parts).placed ctx = Code.placedList ctx parts := by
        rw [Item.placed]
        exact hshape
      rw [hplaced, Item.nodes_other _ hshape, Code.map_node_placedList ctx parts]

theorem Item.map_node_placedList (ctx : Context) :
    ∀ is : List Item,
      (Item.placedList ctx is).map PlacedNode.node = Item.nodesList ctx.site is
  | [] => rfl
  | i :: is => by
    rw [Item.placedList, Item.nodesList, List.map_append, Item.map_node_placed ctx i,
      Item.map_node_placedList ctx is]

end

/-! ### The nodes of a unit -/

/-- The context of the items of a scope. -/
def Context.ofScope (path : List String) : Context :=
  { scope := some path }

mutual

/-- The nodes in an item of a scope, each with its context. -/
def Item.scopePlaced (path : List String) : Item → List PlacedNode
  | .struct attrs vis _ generics body =>
    Attribute.placedList (.ofScope path) (stripAnnotations attrs) ++
      vis.placed (.ofScope path) ++ Code.placedList (.ofScope path) generics ++
      body.placed (.ofScope path)
  | .nominal _ attrs lead _ tail =>
    Attribute.placedList (.ofScope path) (stripAnnotations attrs) ++
      Code.placedList (.ofScope path) lead ++ Code.placedList (.ofScope path) tail
  | .module attrs lead name inner items =>
    (Attribute.placedList (.ofScope path) attrs ++ Code.placedList (.ofScope path) lead ++
      Attribute.placedList (.ofScope path) inner).map PlacedNode.shut ++
      Item.scopePlacedList (path ++ [name.text]) items
  | .use attrs vis global tree => (Item.use attrs vis global tree).placed (.ofScope path)
  | .impl attrs lead trait selfTy clause inner members =>
    (Item.impl attrs lead trait selfTy clause inner members).placed (.ofScope path)
  | .other shape parts => (Item.other shape parts).placed (.ofScope path)

/-- The nodes in the items of a scope. -/
def Item.scopePlacedList (path : List String) : List Item → List PlacedNode
  | [] => []
  | i :: is => i.scopePlaced path ++ Item.scopePlacedList path is

end

mutual

theorem Item.map_node_scopePlaced (path : List String) :
    ∀ i : Item, (i.scopePlaced path).map PlacedNode.node = i.scopeNodes path
  -- the parts of an item are those of its nodes, in the same order
  | .struct attrs vis _ generics body => by
    simp only [Item.scopePlaced, Item.scopeNodes, List.map_append,
      Attribute.map_node_placedList, Visibility.map_node_placed, Code.map_node_placedList,
      StructBody.map_node_placed]
    rfl
  | .nominal _ attrs lead _ tail => by
    simp only [Item.scopePlaced, Item.scopeNodes, List.map_append,
      Attribute.map_node_placedList, Code.map_node_placedList]
    rfl
  -- inside a module the scope is another one
  | .module attrs lead name inner items => by
    simp only [Item.scopePlaced, Item.scopeNodes, List.map_append, PlacedNode.map_node_shut,
      Attribute.map_node_placedList, Code.map_node_placedList,
      Item.map_node_scopePlacedList (path ++ [name.text]) items]
    rfl
  | .use attrs vis global tree =>
    Item.map_node_placed (.ofScope path) (.use attrs vis global tree)
  | .impl attrs lead trait selfTy clause inner members =>
    Item.map_node_placed (.ofScope path) (.impl attrs lead trait selfTy clause inner members)
  | .other shape parts => Item.map_node_placed (.ofScope path) (.other shape parts)

/-- **The nodes of a unit, with and without contexts.** -/
theorem Item.map_node_scopePlacedList (path : List String) :
    ∀ is : List Item,
      (Item.scopePlacedList path is).map PlacedNode.node = Item.scopeNodesList path is
  | [] => rfl
  | i :: is => by
    rw [Item.scopePlacedList, Item.scopeNodesList, List.map_append,
      Item.map_node_scopePlaced path i, Item.map_node_scopePlacedList path is]

end

/-- A round completes the nodes of a unit one by one, whatever their contexts are. -/
theorem Session.injectItems_placed (s : Session) {items : List Item}
    (h : Item.distinctNames items = true) :
    Item.scopeNodesList [] (s.injectItems items).2.1 =
      (Item.scopePlacedList [] items).map
        (fun n => n.node.complete (unitReceived items s.authorize.2.1)) := by
  rw [s.injectItems_nodes h, ← Item.map_node_scopePlacedList, List.map_map]
  rfl

end FieldGraft
