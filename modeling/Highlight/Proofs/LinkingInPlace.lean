import Highlight.Pattern.Literal
import Highlight.Proofs.Marks

/-!
# Linking in place

A grammar that is linked again, elsewhere and among other grammars, is in all respects as if it had
never been linked before. Where its rules are met is reset first and then set by a walk that looks at
nothing but the rules. What rules are bound to is not reset, but binding does not look at it, and the
same rules are bound in every link: the includes on the walk.

- `MarkedGrammar.link_eq`: what a link leaves behind.
- `MarkedGrammar.link_link`: nothing is left of an earlier link.
- `MarkedGrammar.linked_link`: linking in place is linking the grammar as it was loaded.
- `Grammar.Markings`: the marks that loading and any number of links lead to.
- `Grammar.link_forgets_earlier`: the main statement.
-/

namespace Highlight

section

variable [Engine]

namespace MarkedGrammar

variable {g : Grammar} {s : MarkedGrammar}

/-- **What a link leaves behind**: all is set anew, except what the rules are bound to that are no
includes on the walk. -/
theorem link_eq (h : Forest 0 s.grammar.rules.toList [rootRule]) (path : String)
    (find : String → Option MarkedGrammar) : s.link path find = { s with
      path := path
      marks := s.marks.mapIdx fun id m =>
        s.grammar.markOf id (((s.placedAt path).bound? find id).getD m.target)
      order := s.grammar.ruleOrder
      repositoryIndex := s.grammar.repositoryIndex
      unresolved := (s.placedAt path).missing find } := by
  have hplaced := placedAt_eq h path
  have hnodup : (s.placedAt path).order.Nodup := by
    rw [hplaced]
    exact Grammar.ruleOrder_nodup h
  rw [link, bindAll_eq hnodup]
  ext1
  · rw [hplaced]
  · rw [hplaced]
  · refine Array.ext_getElem? fun id => ?_
    rw [congrArg MarkedGrammar.marks hplaced]
    simp only [Array.getElem?_mapIdx, Option.map_map]
    rfl
  · rw [hplaced]
  · rw [hplaced]
  · rfl

/-- **Nothing is left of an earlier link.** -/
theorem link_link (h : Forest 0 g.rules.toList [rootRule]) (hs : Settled g s) (path path' : String)
    (find find' : String → Option MarkedGrammar) :
    (s.link path find).link path' find' = s.link path' find' := by
  obtain rfl := hs.grammar
  have hfirst := link_eq h path find
  have hs' : Settled s.grammar (s.link path find) := hs.link h path find
  have h' : Forest 0 (s.link path find).grammar.rules.toList [rootRule] := by rwa [hs'.grammar]
  have hplaces : SamePlaces ((s.link path find).placedAt path') (s.placedAt path') := by
    refine (hs'.placedAt h path').samePlaces (hs.placedAt h path') ?_
    rw [placedAt_eq h', placedAt_eq h]
  rw [link_eq h', link_eq h path' find', missing_congr hplaces, hs'.grammar]
  ext1
  · rfl
  · rfl
  · refine Array.ext_getElem? fun id => ?_
    simp only [bound?_congr hplaces]
    rw [congrArg MarkedGrammar.marks hfirst]
    simp only [Array.getElem?_mapIdx, Option.map_map]
    refine Option.map_congr fun m _ => congrArg (s.grammar.markOf id) ?_
    -- whatever the first link has set, the second one sets
    show ((s.placedAt path').bound? find' id).getD (((s.placedAt path).bound? find id).getD m.target)
      = ((s.placedAt path').bound? find' id).getD m.target
    cases hbound : (s.placedAt path').bound? find' id with
    | some target => rfl
    | none =>
      have hnone : (s.placedAt path).bound? find id = none := by
        rw [bound?_eq_none_iff, placedAt_eq h] at hbound ⊢
        exact hbound
      rw [hnone]
      rfl
  · rfl
  · rfl
  · rfl

/-! ## The same links as those of the loaded grammar -/

/-- The links of the grammar, apart from the marks. -/
def linked (s : MarkedGrammar) : LinkedGrammar :=
  ⟨s.grammar, s.path, s.marks.map Mark.target, s.unresolved⟩

theorem unresolved_linked : s.linked.unresolved = s.unresolved := rfl

theorem targetOf_eq (h : Forest 0 g.rules.toList [rootRule]) {id : RuleId} {rule : Rule}
    (hrule : g.rules[id]? = some rule) (path : String) (find : String → Option Grammar) :
    g.targetOf path find rule =
      if id ∈ g.ruleOrder then (g.include? id).bind fun (_, reference) => g.bind? path find id reference
      else none := by
  have hid : 0 + id = rule.id := h.id_eq (by rwa [Array.getElem?_toList])
  rw [Nat.zero_add] at hid
  unfold Grammar.targetOf Grammar.include? Grammar.rule?
  rw [hrule]
  simp only [Grammar.mem_ruleOrder, hid]
  cases rule.kind with
  | link reference => rfl
  | group _ | single _ | region _ | guarded _ => simp

theorem unresolved?_eq (path : String) (find : String → Option Grammar) (id : RuleId) :
    g.unresolved? path find id = (g.include? id).bind fun (rule, reference) =>
      match g.bind? path find id reference with
      | some _ => none
      | none => some ⟨rule.location, .unresolvedReference reference.text⟩ := by
  unfold Grammar.unresolved? Grammar.include?
  cases g.rule? id with
  | none => rfl
  | some rule =>
    simp only
    cases rule.kind with
    | link reference => rfl
    | group _ | single _ | region _ | guarded _ => rfl

/-- **Linking in place is linking the grammar as it was loaded**, whatever it was linked to before. -/
theorem linked_link (h : Forest 0 g.rules.toList [rootRule]) (hs : Settled g s) (path : String)
    (find : String → Option MarkedGrammar)
    (hfind : ∀ scope other, find scope = some other → Settled other.grammar other) :
    (s.link path find).linked = g.link path fun scope => (find scope).map MarkedGrammar.grammar := by
  obtain rfl := hs.grammar
  have hplaced := hs.placedAt h path
  have hbind : ∀ id reference, (s.placedAt path).bind? find id reference = s.grammar.bind? path
      (fun scope => (find scope).map MarkedGrammar.grammar) id reference := by
    intro id reference
    rw [hplaced.bind?_eq h hfind, congrArg MarkedGrammar.path (placedAt_eq h path)]
  rw [link_eq h]
  unfold linked Grammar.link
  congr 1
  · refine Array.ext_getElem? fun id => ?_
    simp only [Array.getElem?_map, Array.getElem?_mapIdx, Option.map_map]
    by_cases hid : id < s.grammar.rules.size
    · obtain ⟨m, hm, -⟩ := hs.getElem?_of_lt hid
      rw [hm, Array.getElem?_eq_getElem hid]
      refine congrArg some ?_
      show ((s.placedAt path).bound? find id).getD m.target = s.grammar.targetOf path _ _
      rw [targetOf_eq h (Array.getElem?_eq_getElem hid), bound?, hplaced.order, hplaced.grammar]
      by_cases hwalk : id ∈ s.grammar.ruleOrder
      · rw [if_pos hwalk, if_pos hwalk]
        cases hinclude : s.grammar.include? id with
        | none => exact hs.unbound hm (.inr hinclude)
        | some found => exact hbind id found.2
      · rw [if_neg hwalk, if_neg hwalk]
        exact hs.unbound hm (.inl hwalk)
    · rw [Array.getElem?_eq_none (hs.size ▸ Nat.not_lt.1 hid),
        Array.getElem?_eq_none (Nat.not_lt.1 hid)]
      rfl
  · show (s.placedAt path).missing find = _
    unfold missing
    rw [hplaced.order, hplaced.grammar]
    simp only [hbind]
    exact List.filterMap_congr fun id _ => (unresolved?_eq path _ id).symm

end MarkedGrammar

/-- The marks that a grammar can have: those of loading, and those after any further link. -/
inductive Grammar.Markings (g : Grammar) : MarkedGrammar → Prop
  | loaded : Markings g g.marked
  | link {s : MarkedGrammar} (path : String) (find : String → Option MarkedGrammar) :
    Markings g s → Markings g (s.link path find)

namespace Grammar

variable {g : Grammar} {s : MarkedGrammar}

theorem Markings.settled (h : Forest 0 g.rules.toList [rootRule]) (hs : g.Markings s) :
    s.Settled g := by
  induction hs with
  | loaded => exact MarkedGrammar.settled_marked h
  | link path find _ ih => exact ih.link h path find

/-- Of all links only the last one shows. -/
theorem Markings.link_eq (h : Forest 0 g.rules.toList [rootRule]) (hs : g.Markings s)
    (path : String) (find : String → Option MarkedGrammar) :
    s.link path find = g.marked.link path find := by
  induction hs with
  | loaded => rfl
  | @link s path' find' hs ih =>
    rw [MarkedGrammar.link_link h (hs.settled h), ih]

/-- **Linking forgets earlier links**: linked twice, a grammar is in all respects as if it had been
linked the second time only. The order of the rules and the entries met on the walk are those that
loading has set, and what the links are is what linking the loaded grammar gives. -/
theorem link_forgets_earlier (d : GrammarDefinition) (g : Grammar) (hd : ofDefinition d = .ok g) :
    (∀ path path' find find',
      (g.marked.link path find).link path' find' = g.marked.link path' find') ∧
    (∀ path find, (g.marked.link path find).link path find = g.marked.link path find) ∧
    (∀ s, g.Markings s → ∀ path find, s.link path find = g.marked.link path find) ∧
    (∀ s, g.Markings s → s.order = g.marked.order ∧ s.repositoryIndex = g.marked.repositoryIndex) ∧
    ∀ s, g.Markings s → ∀ path (find : String → Option MarkedGrammar),
      (∀ scope other, find scope = some other →
        other.grammar.Markings other ∧ ∃ d', ofDefinition d' = .ok other.grammar) →
      (s.link path find).linked = g.link path fun scope => (find scope).map MarkedGrammar.grammar := by
  have h := forest_of_ofDefinition hd
  have hmarked := MarkedGrammar.settled_marked h
  refine ⟨fun path path' find find' => MarkedGrammar.link_link h hmarked path path' find find',
    fun path find => MarkedGrammar.link_link h hmarked path path find find,
    fun s hs path find => hs.link_eq h path find, fun s hs => ?_, fun s hs path find hfind => ?_⟩
  · have hsettled := hs.settled h
    constructor
    · rw [hsettled.order, hmarked.order]
    · rw [hsettled.repositoryIndex, hmarked.repositoryIndex]
  · refine MarkedGrammar.linked_link h (hs.settled h) path find fun scope other hother => ?_
    obtain ⟨hmarkings, d', hd'⟩ := hfind scope other hother
    exact hmarkings.settled (forest_of_ofDefinition hd')

end Grammar

end

namespace Grammar

/-- A grammar that includes another, which is there when it is linked first and is gone when it is
linked again elsewhere. -/
theorem link_forgets_earlier_gone :
    let x : Part := .name { chars := ['x'] }
    let a : Part := .name { chars := ['a'] }
    let b : Part := .name { chars := ['b'] }
    let naming : String → RuleDefinition := fun value => { keys := { includeText := some value } }
    let list : List RuleDefinition → RuleDefinition := fun rules => { patterns := some rules }
    let d : GrammarDefinition :=
      { scopeName := some "x.a", patterns := [naming "x.b", naming "#c"],
        repository := [("c", list [naming "$self"])] }
    let d' : GrammarDefinition := { scopeName := some "x.b" }
    let g := ofScoped d ⟨[x, a], by decide⟩
    let g' := ofScoped d' ⟨[x, b], by decide⟩
    let among : String → Option MarkedGrammar := fun scope =>
      if scope = "x.b" then some g'.marked else none
    let twice := (g.marked.link "x.a" among).link "y" fun _ => none
    ofDefinition d = .ok g ∧ ofDefinition d' = .ok g' ∧
      (g.marked.link "x.a" among).linked.target? 1 = some (.rule ⟨"x.b", rootRule⟩) ∧
      (g.marked.link "x.a" among).unresolved = [] ∧
      twice = g.marked.link "y" (fun _ => none) ∧ twice.linked.target? 1 = none ∧
      twice.unresolved = [⟨"patterns[0]", .unresolvedReference "x.b"⟩] := by
  intro x a b naming list d d' g g' among twice
  have hd : ofDefinition d = .ok g := rfl
  have hd' : ofDefinition d' = .ok g' := rfl
  obtain ⟨htwice, -, -, -, hlinked⟩ := link_forgets_earlier d g hd
  have hforest := forest_of_ofDefinition hd
  have hwalk : 1 ∈ g.ruleOrder := by decide +kernel +zetaReduce
  have hreference : (g.include? 1).map Prod.snd = some (.external "x.b" none) := by
    decide +kernel +zetaReduce
  have hincludes := includes_of_include? hforest hwalk hreference
  have hsettled := MarkedGrammar.settled_marked (forest_of_ofDefinition hd')
  have hamong : (fun scope => (among scope).map MarkedGrammar.grammar) =
      fun scope => if scope = "x.b" then some g' else none := by
    funext scope
    by_cases hscope : scope = "x.b"
    · simp only [among, if_pos hscope]
      exact congrArg some hsettled.grammar
    · simp only [among, if_neg hscope]
      rfl
  have hlinks : (g.marked.link "x.a" among).linked = g.link "x.a" fun scope =>
      (among scope).map MarkedGrammar.grammar := by
    refine hlinked _ .loaded "x.a" among fun scope other hother => ?_
    obtain ⟨-, rfl⟩ : scope = "x.b" ∧ g'.marked = other := by simpa [among] using hother
    rw [hsettled.grammar]
    exact ⟨.loaded, d', hd'⟩
  have hlinks' : (g.marked.link "y" fun _ => none).linked = g.link "y" fun _ => none :=
    hlinked _ .loaded "y" (fun _ => none) nofun
  have htwice : twice = g.marked.link "y" fun _ => none := htwice "x.a" "y" among fun _ => none
  rw [hamong] at hlinks
  refine ⟨hd, hd', ?_, ?_, htwice, ?_, ?_⟩
  · rw [hlinks, target?_link hforest hincludes]
    rfl
  · rw [← MarkedGrammar.unresolved_linked, hlinks]
    decide +kernel +zetaReduce
  · rw [htwice, hlinks', target?_link hforest hincludes]
    rfl
  · rw [htwice, ← MarkedGrammar.unresolved_linked, hlinks']
    decide +kernel +zetaReduce

end Grammar

end Highlight
