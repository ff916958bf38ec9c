import Highlight.Pattern.Literal
import Highlight.Proofs.Links
import Highlight.Proofs.TreeNodes

/-!
# A registry is a map from paths

Grammars are placed and removed at dotted paths, and the tree beneath has nodes for the parts of these
paths. Whatever the changes were, asking for the grammar at a path gives the one that was placed there
last and not removed since, and the nodes that come and go for other paths do not show. What the tree
has beyond the map are its abstract nodes, and they follow a rule too: those in front of a grammar are
always there, and a node goes only with its own grammar.

- `Change`, `Registry.apply`, `Change.hold`: changes, and what they do to a registry and to a map.
- `Registry.HasNode`: there is a node at a path, with a grammar or without.
- `Registry.register_spec`, `Registry.unregister?_spec`: what is loaded and which nodes there are after
  a change.
- `Registry.Shaped`: what every change preserves.
- `Registry.changes_as_map`: the main statement.
-/

namespace Highlight

section

variable [Engine]

/-! ## Changes -/

/-- A change of a registry: a grammar is placed at a path, or the one at a path is removed. -/
inductive Change
  | register (g : Grammar) (path : String)
  | unregister (path : String)

namespace Change

/-- The path that a change is about. -/
def path : Change → String
  | register _ path => path
  | unregister path => path

/-- A map from paths after a change. A path at which no grammar can be placed keeps what it has. -/
def hold : Change → (String → Option Grammar) → String → Option Grammar
  | register g path, held =>
    match Registry.checkPath path with
    | .ok _ => Function.update held path (some g)
    | .error _ => held
  | unregister path, held => Function.update held path none

theorem hold_of_ne {change : Change} {held : String → Option Grammar} {other : String}
    (h : other ≠ change.path) : change.hold held other = held other := by
  cases change with
  | register g path =>
    rw [hold]
    cases Registry.checkPath path with
    | error fault => rfl
    | ok _ => exact Function.update_of_ne h _ _
  | unregister path => exact Function.update_of_ne h _ _

end Change

namespace Registry

/-- The registry after a change. One that fails leaves the registry as it is. -/
def apply (r : Registry) : Change → Registry
  | .register g path =>
    match r.register g path with
    | .ok changed => changed
    | .error _ => r
  | .unregister path =>
    match r.unregister? path with
    | some (_, changed) => changed
    | none => r

variable {r r' : Registry} {path other : String}

/-! ## Nodes -/

/-- There is a node at a path, with a grammar or without. -/
def HasNode (r : Registry) (path : String) : Prop :=
  (r.find? path).isSome ∨ r.isAbstract path = true

theorem hasNode_iff : r.HasNode path ↔ r.tree.HasNode (segments path) := by
  unfold HasNode find? isAbstract Tree.get? Tree.HasNode
  rcases r.tree.node? (segments path) with _ | ⟨_ | g, children⟩
  · simp
  · simp
  · simp

/-- A node is abstract when it has no grammar. -/
theorem isAbstract_iff : r.isAbstract path = true ↔ r.HasNode path ∧ r.loaded? path = none := by
  unfold HasNode loaded? find? isAbstract Tree.get?
  rcases r.tree.node? (segments path) with _ | ⟨_ | g, children⟩
  · simp
  · simp
  · simp

/-- **There is a node in front of every grammar.** -/
theorem hasNode_of_below {rest : String} (h : r.HasNode (path ++ "." ++ rest)) : r.HasNode path := by
  rw [hasNode_iff, segments_below] at h
  exact hasNode_iff.2 (h.along (List.prefix_append _ _))

/-! ## One spec for each change -/

theorem loaded?_relinkList (paths : List String) : (r.relinkList paths).loaded? = r.loaded? := by
  induction paths generalizing r with
  | nil => rfl
  | cons path paths ih => exact (ih (r := r.relink path)).trans (loaded?_relink path)

/-- Linking again puts grammars back where they were, so no node comes or goes. -/
theorem hasNode_relinkList (paths : List String) (parts : List String) :
    (r.relinkList paths).tree.HasNode parts ↔ r.tree.HasNode parts := by
  induction paths generalizing r with
  | nil => rfl
  | cons path paths ih =>
    refine (ih (r := r.relink path)).trans ?_
    unfold relink
    cases hfind : r.find? path with
    | none => rfl
    | some g =>
      simp only
      rw [Tree.hasNode_insert, Tree.hasNode_clear]
      constructor
      · rintro (hway | hnode)
        · exact (Tree.hasNode_of_get? hfind).along hway
        · exact hnode
      · exact .inr

/-- What placing a grammar does. -/
theorem register_spec (hpath : checkPath path = .ok ()) (g : Grammar) :
    ∃ changed, r.register g path = .ok changed ∧
      changed.loaded? = Function.update r.loaded? path (some g) ∧
      (∀ parts, changed.tree.HasNode parts ↔ parts <+: segments path ∨ r.tree.HasNode parts) ∧
      (r.tree.Proper → changed.tree.Proper) := by
  refine ⟨_, register_eq_ok.2 ⟨hpath, rfl⟩, ?_, fun parts => ?_, fun hproper => ?_⟩
  · rw [loaded?_relinkList]
    funext other
    by_cases heq : other = path
    · rw [heq, Function.update_self, loaded?, find?, Tree.get?_insert_self]
      rfl
    · rw [Function.update_of_ne heq, loaded?, find?,
        Tree.get?_insert_other fun hsame => heq (segments_injective hsame)]
      rfl
  · rw [hasNode_relinkList, Tree.hasNode_insert]
  · exact proper_relinkList (hproper.insert _ (segments_of_checkPath hpath)) _

/-- What removing a grammar does. -/
theorem unregister?_spec (hproper : r.tree.Proper) {g : LinkedGrammar}
    (hfind : r.find? path = some g) :
    ∃ changed, r.unregister? path = some (g, changed) ∧
      changed.loaded? = Function.update r.loaded? path none ∧
      (∀ parts, changed.tree.HasNode parts ↔
        r.tree.HasNode parts ∧ (parts = segments path → r.tree.HasBelow (segments path))) ∧
      changed.tree.Proper := by
  obtain ⟨s, rest, hparts⟩ := List.exists_cons_of_ne_nil (segments_ne_nil path)
  have hget : r.tree.get? (s :: rest) = some g := by
    rw [← hparts]
    exact hfind
  obtain ⟨tree, hremove⟩ := Tree.exists_remove? hget
  rw [← hparts] at hremove
  obtain ⟨hproper', hsame⟩ := hproper.remove hremove
  refine ⟨_, by rw [unregister?, hfind, hremove], ?_, fun parts => ?_, ?_⟩
  · rw [loaded?_relinkList]
    funext other
    rw [loaded?, find?, hsame]
    by_cases heq : other = path
    · rw [heq, if_pos rfl, Function.update_self]
      rfl
    · rw [if_neg fun hsegments => heq (segments_injective hsegments), Function.update_of_ne heq]
      rfl
  · rw [hasNode_relinkList]
    exact hproper.hasNode_remove hremove parts
  · exact proper_relinkList hproper' _

theorem unregister?_of_find? (h : r.find? path = none) : r.unregister? path = none := by
  rw [unregister?, h]

theorem register_of_checkPath {fault : Error} (h : checkPath path = .error fault) (g : Grammar) :
    r.register g path = .error fault := by
  rw [register, h]
  rfl

/-! ## What every change preserves -/

/-- The shape of the trees beneath registries. -/
structure Shaped (r : Registry) : Prop where
  proper : r.tree.Proper
  dotless : r.tree.Dotless

theorem loaded?_empty : empty.loaded? = fun _ => none := by
  funext path
  rw [loaded?, find?, empty, Tree.get?_empty]
  rfl

theorem shaped_empty : empty.Shaped where
  proper := .empty
  dotless path hnode := by
    cases path with
    | nil => exact fun _ hs => absurd hs List.not_mem_nil
    | cons s rest => exact absurd hnode (Tree.not_hasNode_of_leaf rfl)

/-- A change keeps the shape, and it changes what is loaded like a map. -/
theorem Shaped.apply (h : r.Shaped) (change : Change) :
    (r.apply change).Shaped ∧ (r.apply change).loaded? = change.hold r.loaded? := by
  cases change with
  | register g path =>
    cases hcheck : checkPath path with
    | error fault =>
      rw [Registry.apply, Change.hold, register_of_checkPath hcheck, hcheck]
      exact ⟨h, rfl⟩
    | ok _ =>
      obtain ⟨changed, hregister, hloaded, hnodes, hproper⟩ := register_spec (r := r) hcheck g
      rw [Registry.apply, Change.hold, hregister, hcheck]
      refine ⟨⟨hproper h.proper, fun parts hnode s hs => ?_⟩, hloaded⟩
      rcases (hnodes parts).1 hnode with hway | hnode
      · exact dot_not_mem_segments (hway.subset hs)
      · exact h.dotless parts hnode s hs
  | unregister path =>
    cases hfind : r.find? path with
    | none =>
      rw [Registry.apply, Change.hold, unregister?_of_find? hfind]
      refine ⟨h, (Function.update_eq_self_iff.2 ?_).symm⟩
      rw [loaded?, hfind]
      rfl
    | some g =>
      obtain ⟨changed, hunregister, hloaded, hnodes, hproper⟩ := unregister?_spec h.proper hfind
      rw [Registry.apply, Change.hold, hunregister]
      exact ⟨⟨hproper, fun parts hnode => h.dotless parts ((hnodes parts).1 hnode).1⟩, hloaded⟩

theorem Shaped.foldl (h : r.Shaped) (changes : List Change) :
    (changes.foldl Registry.apply r).Shaped ∧ (changes.foldl Registry.apply r).loaded? =
      changes.foldl (fun held change => change.hold held) r.loaded? := by
  induction changes generalizing r with
  | nil => exact ⟨h, rfl⟩
  | cons change changes ih =>
    obtain ⟨hshaped, hloaded⟩ := h.apply change
    rw [List.foldl_cons, List.foldl_cons, ← hloaded]
    exact ih hshaped

/-- Nodes below a path in the tree are nodes at longer paths. -/
theorem Shaped.hasBelow_iff (h : r.Shaped) :
    r.tree.HasBelow (segments path) ↔ ∃ rest, r.HasNode (path ++ "." ++ rest) := by
  constructor
  · rintro ⟨s, rest, hnode⟩
    refine ⟨String.ofList (Text.joined '.' ((s :: rest).map String.toList)), ?_⟩
    have hdots : ∀ s' ∈ s :: rest, '.' ∉ s'.toList :=
      fun s' hs => h.dotless _ hnode s' (List.mem_append_right _ hs)
    rw [hasNode_iff, segments_below, segments_joined (List.cons_ne_nil s rest) hdots]
    exact hnode
  · rintro ⟨rest, hnode⟩
    rw [hasNode_iff, segments_below] at hnode
    obtain ⟨s, others, hparts⟩ := List.exists_cons_of_ne_nil (segments_ne_nil rest)
    rw [hparts] at hnode
    exact ⟨s, others, hnode⟩

/-- **Removing a grammar takes its node along only if there is none below it.** -/
theorem Shaped.unregister? (h : r.Shaped) {g : LinkedGrammar} (hfind : r.find? path = some g) :
    ∃ changed, r.unregister? path = some (g, changed) ∧
      (∀ other, changed.HasNode other ↔
        r.HasNode other ∧ (other = path → ∃ rest, r.HasNode (path ++ "." ++ rest))) ∧
      (changed.isAbstract path = true ↔ ∃ rest, r.HasNode (path ++ "." ++ rest)) ∧
      ∀ other, other ≠ path → changed.isAbstract other = r.isAbstract other := by
  obtain ⟨changed, hunregister, hloaded, hnodes, -⟩ := unregister?_spec h.proper hfind
  have hnode : ∀ other, changed.HasNode other ↔
      r.HasNode other ∧ (other = path → ∃ rest, r.HasNode (path ++ "." ++ rest)) := by
    intro other
    rw [hasNode_iff, hnodes, h.hasBelow_iff, hasNode_iff, segments_injective.eq_iff]
  have hself : r.HasNode path := .inl (Option.isSome_of_eq_some hfind)
  refine ⟨changed, hunregister, hnode, ?_, fun other hne => Bool.eq_iff_iff.2 ?_⟩
  · rw [isAbstract_iff, hnode, hloaded, Function.update_self]
    simp [hself]
  · rw [isAbstract_iff, isAbstract_iff, hnode, hloaded, Function.update_of_ne hne]
    simp [hne]

/-- **A registry is a map from paths.** After any changes, the grammar that is found at a path is the
one that was placed there last, if it was not removed since, and the list of the grammars has each once,
in the order of the parts of paths. A change at a path does not show at others. There are nodes in
front of every grammar, a grammar that is removed leaves an abstract node exactly if there are nodes
below, and a change that fails does nothing. -/
theorem changes_as_map (changes : List Change) :
    let r := changes.foldl apply empty
    let held := changes.foldl (fun held change => change.hold held) fun _ => none
    (∀ path, r.loaded? path = held path ∧ ((r.find? path).isSome ↔ (held path).isSome)) ∧
      (∀ path, path ∈ r.grammars.map Prod.fst ↔ (held path).isSome) ∧
      (∀ path g, (path, g) ∈ r.grammars ↔ r.find? path = some g) ∧
      r.grammars.Pairwise (fun e e' => segments e.1 < segments e'.1) ∧
      (r.grammars.map Prod.fst).Nodup ∧
      (∀ change path, path ≠ change.path → (r.apply change).loaded? path = r.loaded? path) ∧
      (∀ path rest, (held (path ++ "." ++ rest)).isSome → r.HasNode path) ∧
      (∀ path g, r.find? path = some g →
        ∃ changed, r.unregister? path = some (g, changed) ∧
          (∀ other, changed.HasNode other ↔
            r.HasNode other ∧ (other = path → ∃ rest, r.HasNode (path ++ "." ++ rest))) ∧
          (changed.isAbstract path = true ↔ ∃ rest, r.HasNode (path ++ "." ++ rest)) ∧
          ∀ other, other ≠ path → changed.isAbstract other = r.isAbstract other) ∧
      (∀ path, r.find? path = none →
        r.unregister? path = none ∧ r.apply (.unregister path) = r) ∧
      ∀ path fault, checkPath path = .error fault → ∀ g,
        r.register g path = .error fault ∧ r.apply (.register g path) = r := by
  intro r held
  obtain ⟨hshaped, hloaded⟩ := shaped_empty.foldl changes
  rw [loaded?_empty] at hloaded
  have hheld : ∀ path, r.loaded? path = held path := congrFun hloaded
  have hfound : ∀ path, (r.find? path).isSome ↔ (held path).isSome := by
    intro path
    rw [← hheld, loaded?, Option.isSome_map]
  have hlisted : ∀ path g, (path, g) ∈ r.grammars ↔ r.find? path = some g :=
    fun _ _ => hshaped.proper.mem_toList_iff hshaped.dotless
  have hincreasing := hshaped.proper.increasing_toList hshaped.dotless
  refine ⟨fun path => ⟨hheld path, hfound path⟩, fun path => ?_, hlisted, hincreasing, ?_, ?_, ?_,
    fun _ _ => hshaped.unregister?, ?_, ?_⟩
  · rw [← hfound, Option.isSome_iff_exists, List.mem_map]
    constructor
    · rintro ⟨e, he, rfl⟩
      exact ⟨e.2, (hlisted e.1 e.2).1 he⟩
    · rintro ⟨g, hg⟩
      exact ⟨(path, g), (hlisted path g).2 hg, rfl⟩
  · refine List.pairwise_map.2 (hincreasing.imp fun hlt heq => ?_)
    rw [heq] at hlt
    exact List.lt_irrefl _ hlt
  · intro change path hne
    rw [(hshaped.apply change).2]
    exact Change.hold_of_ne hne
  · intro path rest hsome
    exact hasNode_of_below (.inl ((hfound _).2 hsome))
  · intro path hnone
    have hfails := unregister?_of_find? hnone
    exact ⟨hfails, by rw [apply, hfails]⟩
  · intro path fault hcheck g
    have hfails := register_of_checkPath (r := r) hcheck g
    exact ⟨hfails, by rw [apply, hfails]⟩

end Registry

end

namespace Registry

/-- A grammar that is removed from in front of another one, and leaves an abstract node. -/
theorem changes_as_map_demoted :
    let x : Part := .name { chars := ['x'] }
    let d : GrammarDefinition := { scopeName := some "x" }
    let g := Grammar.ofScoped d ⟨[x], by decide⟩
    let r := [Change.register g "x.a.b", .register g "x.a"].foldl apply empty
    ∃ linked changed, r.find? "x.a" = some linked ∧
      r.unregister? "x.a" = some (linked, changed) ∧ changed.isAbstract "x.a" = true ∧
      changed.isAbstract "x" = r.isAbstract "x" := by
  intro x d g r
  obtain ⟨hfind, -, -, -, -, -, -, hremoved, -⟩ :=
    changes_as_map [.register g "x.a.b", .register g "x.a"]
  have hbelow : r.HasNode ("x.a" ++ "." ++ "b") := .inl ((hfind "x.a.b").2.2 (by decide +kernel))
  obtain ⟨linked, hlinked⟩ :=
    Option.isSome_iff_exists.1 ((hfind "x.a").2.2 (by decide +kernel))
  obtain ⟨changed, hunregister, -, habstract, hothers⟩ := hremoved "x.a" linked hlinked
  exact ⟨linked, changed, hlinked, hunregister, habstract.2 ⟨"b", hbelow⟩,
    hothers "x" (by decide)⟩

end Registry

end Highlight
