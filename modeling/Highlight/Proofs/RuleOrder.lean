import Highlight.Pattern.Literal
import Highlight.Proofs.KeyedMaps
import Highlight.Proofs.LinkingInPlace
import Mathlib.Logic.Relation

/-!
# The order of a grammar's rules

A loaded grammar is a tree of rules with numbers, beside which there can be rules that nobody owns. The
walk lists the tree from the first rule on: each rule, then all that is below it, in the order of its
patterns, its repository and its captures. What is noted of a listed rule is its one place in the tree,
and from there one gets to the first rule by going from owner to owner. So looking a key up on the way
comes to an end, without counting turns.

- `PreOrder`: a list of rules, each with all that is below it behind it.
- `MarkedGrammar.Climbs`: looking a key up from owner to owner, for as long as it takes.
- `MarkedGrammar.Arranged`: how the rules of a grammar are numbered, listed and marked.
- `Grammar.preOrder_ruleOrder`, `Grammar.index?_eq_some_iff`: the walk, and the positions on it.
- `MarkedGrammar.Settled.climbs_nearest?`: looking up from owner to owner ends.
- `Grammar.arranged_markings`: the main statement.
-/

namespace Highlight

section

variable [Engine]

/-- The rules with some numbers, and all that is below them: each is listed in front of the rules that
it owns, and these are listed in their order. -/
inductive PreOrder (rules : Array Rule) : List RuleId → List RuleId → Prop
  | nil : PreOrder rules [] []
  | cons {id : RuleId} {rule : Rule} {ids below after : List RuleId} : rules[id]? = some rule →
      PreOrder rules rule.owned below → PreOrder rules ids after →
      PreOrder rules (id :: ids) (id :: (below ++ after))

/-- Looks a key up in the repository of a rule and of the rules around it, the innermost first, and
then among the entries met on the walk. The last is what is found. -/
inductive MarkedGrammar.Climbs (s : MarkedGrammar) (key : String) :
    Option RuleId → Option RuleId → Prop
  | top : Climbs s key none (Entries.get? key s.repositoryIndex)
  | missing {id : RuleId} : s.grammar.rule? id = none → Climbs s key (some id) none
  | found {id : RuleId} {rule : Rule} {entry : RuleId} : s.grammar.rule? id = some rule →
      Entries.get? key rule.repository = some entry → Climbs s key (some id) (some entry)
  | up {id : RuleId} {rule : Rule} {found : Option RuleId} : s.grammar.rule? id = some rule →
      Entries.get? key rule.repository = none → Climbs s key (s.owner? id) found →
      Climbs s key (some id) found

/-- How the rules of a grammar are numbered and listed, and what is noted of each. -/
structure MarkedGrammar.Arranged (s : MarkedGrammar) : Prop where
  id_eq : ∀ {id : RuleId} {rule : Rule}, s.grammar.rule? id = some rule → rule.id = id
  owned_range : ∀ {owner : RuleId} {rule : Rule}, s.grammar.rule? owner = some rule →
    ∀ id ∈ rule.owned, owner < id ∧ id < s.grammar.rules.size
  owned_once : (s.grammar.rules.toList.flatMap Rule.owned).Nodup
  head_order : s.order.head? = some rootRule
  nodup_order : s.order.Nodup
  mem_order : ∀ {id : RuleId}, id ∈ s.order ↔ Below s.grammar.rules.toList rootRule id
  preOrder : PreOrder s.grammar.rules [rootRule] s.order
  size_marks : s.marks.size = s.grammar.rules.size
  index : ∀ {id : RuleId} {m : Mark}, s.marks[id]? = some m →
    ∀ n, m.index = some n ↔ s.order[n]? = some id
  root : ∀ {m : Mark}, s.marks[rootRule]? = some m → m.owner = none ∧ m.key = none
  listed : ∀ {id : RuleId} {m : Mark}, s.marks[id]? = some m → id ∈ s.order → id ≠ rootRule →
    ∃ owner ∈ s.order, m.owner = some owner ∧
      ∀ owner' key, s.grammar.Holds owner' key id ↔ owner' = owner ∧ key = m.key
  unlisted : ∀ {id : RuleId} {m : Mark}, s.marks[id]? = some m → id ∉ s.order →
    m.index = none ∧ m.owner = none ∧ m.key = none
  upward : ∀ {id : RuleId}, id ∈ s.order →
    Relation.ReflTransGen (fun inner outer => s.owner? inner = some outer) id rootRule
  climbs : ∀ {id : RuleId}, id ∈ s.order → ∀ key, s.Climbs key (s.owner? id) (s.nearest? id key)

/-! ## The walk -/

theorem PreOrder.nil_eq {rules : Array Rule} {order : List RuleId} (h : PreOrder rules [] order) :
    order = [] := by
  cases h
  rfl

/-- A rule with all below it, in front of others. -/
theorem PreOrder.append {rules : Array Rule} {id : RuleId} {ids order after : List RuleId}
    (h : PreOrder rules [id] order) (h' : PreOrder rules ids after) :
    PreOrder rules (id :: ids) (order ++ after) := by
  cases h with
  | @cons _ _ _ below _ hrule hbelow hnone =>
    rw [hnone.nil_eq, List.append_nil]
    exact .cons hrule hbelow h'

/-- What the walk meets from several visits on. -/
theorem preOrder_flatMap {rules : Array Rule} {met : Visit → List RuleId} {visits : List Visit}
    (h : ∀ visit ∈ visits, PreOrder rules [visit.rule] (met visit)) :
    PreOrder rules (visits.map Visit.rule) (visits.flatMap met) := by
  induction visits with
  | nil => exact .nil
  | cons visit visits ih =>
    obtain ⟨hfirst, hrest⟩ := List.forall_mem_cons.1 h
    exact hfirst.append (ih hrest)

/-- What the walk meets from a rule on, if it is allowed enough levels. -/
theorem preOrder_metFrom {rules : Array Rule} {roots : List RuleId} (h : Forest 0 rules.toList roots)
    (levels : Nat) {visit : Visit} (hvisit : visit.rule < rules.size)
    (hlevels : rules.size ≤ levels + visit.rule) :
    PreOrder rules [visit.rule] (Walker.metFrom rules levels visit) := by
  induction levels generalizing visit with
  | zero =>
    rw [Nat.zero_add] at hlevels
    exact absurd hvisit (Nat.not_lt.2 hlevels)
  | succ levels ih =>
    have hrule : rules[visit.rule]? = some rules[visit.rule] := Array.getElem?_eq_getElem hvisit
    rw [Walker.metFrom_succ hrule, ← List.append_nil (List.flatMap _ _)]
    refine .cons hrule ?_ .nil
    have hlist : rules.toList[visit.rule]? = some rules[visit.rule] := by
      rwa [Array.getElem?_toList]
    rw [← Walker.map_rule_ownedVisits visit.rule]
    refine preOrder_flatMap fun owned howned => ?_
    -- the owned rules have greater numbers, so fewer levels are enough for them
    have hid : owned.rule ∈ rules[visit.rule].owned := by
      rw [← Walker.map_rule_ownedVisits visit.rule]
      exact List.mem_map_of_mem howned
    have hlt := h.owned_lt hlist hid
    refine ih ?_ (by omega)
    simpa using (h.owned_range hlist hid).2

namespace Grammar

variable {g : Grammar}

theorem preOrder_ruleOrder (h : Forest 0 g.rules.toList [rootRule]) :
    PreOrder g.rules [rootRule] g.ruleOrder := by
  have hroot : rootRule < g.rules.size := by simpa using (h.root_range List.mem_cons_self).2
  unfold ruleOrder
  rw [g.visits_eq]
  have hlevels : g.rules.size ≤ g.rules.size + (⟨rootRule, none, none⟩ : Visit).rule :=
    Nat.le_add_right _ _
  exact preOrder_metFrom h g.rules.size hroot hlevels

theorem head?_ruleOrder (h : Forest 0 g.rules.toList [rootRule]) :
    g.ruleOrder.head? = some rootRule := by
  have horder := preOrder_ruleOrder h
  generalize g.ruleOrder = order at horder ⊢
  cases horder with
  | cons => rfl

/-- **The position of a rule** is the place at which the walk lists it. -/
theorem index?_eq_some_iff (h : Forest 0 g.rules.toList [rootRule]) {id : RuleId} {n : Nat} :
    g.index? id = some n ↔ g.ruleOrder[n]? = some id := by
  have hnodup := ruleOrder_nodup h
  have hindex : g.index? id = g.ruleOrder.findIdx? (· == id) := by
    rw [ruleOrder, List.findIdx?_map]
    rfl
  rw [hindex, List.findIdx?_eq_some_iff_getElem, List.getElem?_eq_some_iff]
  constructor
  · rintro ⟨hlt, heq, -⟩
    exact ⟨hlt, by simpa using heq⟩
  · rintro ⟨hlt, rfl⟩
    refine ⟨hlt, by simp, fun j hj heq => ?_⟩
    -- no rule is listed twice
    have hsame : g.ruleOrder[j] = g.ruleOrder[n] := by simpa using heq
    exact absurd ((hnodup.getElem_inj_iff).1 hsame) (Nat.ne_of_lt hj)

/-- From each rule on the walk one gets to the first rule by going from owner to owner. -/
theorem owners_reach_root (h : Forest 0 g.rules.toList [rootRule]) {id : RuleId}
    (hid : id ∈ g.ruleOrder) :
    Relation.ReflTransGen (fun inner outer => g.owner? inner = some outer) id rootRule := by
  induction id using Nat.strong_induction_on with
  | _ id ih =>
    by_cases hroot : id = rootRule
    · rw [hroot]
    · obtain ⟨owner, howner⟩ := exists_owner h hid hroot
      exact .head howner (ih owner (owner_lt h howner) (owner_mem_ruleOrder howner))

/-- Nothing is noted of a rule that is not on the walk. -/
theorem markOf_of_notMem (h : Forest 0 g.rules.toList [rootRule]) {id : RuleId}
    (hid : id ∉ g.ruleOrder) (target : Option Target) : (g.markOf id target).index = none ∧
      (g.markOf id target).owner = none ∧ (g.markOf id target).key = none := by
  have hvisit : g.visit? id = none := by simpa [mem_ruleOrder] using hid
  have hindex : g.index? id = none := by
    rw [Option.eq_none_iff_forall_ne_some]
    exact fun n hn => hid (List.mem_of_getElem? ((index?_eq_some_iff h).1 hn))
  simp [markOf, owner?, hvisit, hindex]

end Grammar

namespace MarkedGrammar

variable {g : Grammar} {s : MarkedGrammar}

/-- As many turns as the number of a rule on the walk are enough for looking up from there. -/
theorem Settled.climbs_lookUp? (hs : Settled g s) (h : Forest 0 g.rules.toList [rootRule])
    (key : String) (turns : Nat) (current : Option RuleId)
    (hturns : ∀ id, current = some id → id < turns ∧ id ∈ g.ruleOrder) :
    s.Climbs key current (s.lookUp? key turns current) := by
  induction turns generalizing current with
  | zero =>
    cases current with
    | none => exact .top
    | some id => exact absurd (hturns id rfl).1 (Nat.not_lt_zero id)
  | succ turns ih =>
    cases current with
    | none => exact .top
    | some id =>
      obtain ⟨hlt, hwalk⟩ := hturns id rfl
      obtain ⟨rule, hrule⟩ := Option.isSome_iff_exists.1 (Grammar.rule_of_mem_ruleOrder hwalk)
      rw [← hs.grammar] at hrule
      rw [lookUp?, hrule]
      cases hentry : Entries.get? key rule.repository with
      | some entry =>
        simp only [hentry]
        exact .found hrule hentry
      | none =>
        simp only [hentry]
        refine .up hrule hentry (ih _ fun owner howner => ?_)
        rw [hs.owner?_eq] at howner
        refine ⟨?_, Grammar.owner_mem_ruleOrder howner⟩
        exact Nat.lt_of_lt_of_le (Grammar.owner_lt h howner) (Nat.le_of_lt_succ hlt)

/-- **Looking up from owner to owner ends**, and what it finds is what is found with as many turns as
there are rules. -/
theorem Settled.climbs_nearest? (hs : Settled g s) (h : Forest 0 g.rules.toList [rootRule])
    (id : RuleId) (key : String) : s.Climbs key (s.owner? id) (s.nearest? id key) := by
  refine hs.climbs_lookUp? h key _ _ fun owner howner => ?_
  rw [hs.owner?_eq] at howner
  rw [hs.grammar]
  exact ⟨Grammar.owner_lt_size howner, Grammar.owner_mem_ruleOrder howner⟩

theorem Settled.arranged (hs : Settled g s) (h : Forest 0 g.rules.toList [rootRule]) :
    s.Arranged := by
  obtain rfl := hs.grammar
  have hlist : ∀ {id : RuleId} {rule : Rule}, s.grammar.rule? id = some rule →
      s.grammar.rules.toList[id]? = some rule := by
    intro id rule hrule
    rwa [Array.getElem?_toList]
  refine ⟨fun hrule => ?_, fun hrule id hid => ⟨h.owned_lt (hlist hrule) hid, ?_⟩,
    (List.nodup_append.1 h.nodup).2.1, ?_, ?_, ?_, ?_, hs.size, fun hm n => ?_, fun hm => ?_,
    fun hm hid hroot => ?_, fun hm hid => ?_, fun hid => ?_, fun _ key => hs.climbs_nearest? h _ key⟩
  · rw [← h.id_eq (hlist hrule), Nat.zero_add]
  · simpa using (h.owned_range (hlist hrule) hid).2
  · rw [hs.order]
    exact Grammar.head?_ruleOrder h
  · rw [hs.order]
    exact Grammar.ruleOrder_nodup h
  · rw [hs.order]
    exact Grammar.mem_ruleOrder_iff h
  · rw [hs.order]
    exact Grammar.preOrder_ruleOrder h
  · rw [hs.mark hm, hs.order]
    exact Grammar.index?_eq_some_iff h
  · rw [hs.mark hm]
    refine ⟨Grammar.owner?_root h, ?_⟩
    rw [Grammar.markOf, Grammar.visit?_root h]
    rfl
  · rw [hs.mark hm]
    rw [hs.order] at hid ⊢
    exact Grammar.exists_place h hid hroot
  · rw [hs.mark hm]
    rw [hs.order] at hid
    exact Grammar.markOf_of_notMem h hid _
  · simp only [hs.owner?_eq]
    rw [hs.order] at hid
    exact Grammar.owners_reach_root h hid

end MarkedGrammar

namespace Grammar

/-- **How the rules of a grammar are numbered, listed and marked**, after loading and after any links.
Rules have increasing numbers from owner to owned and one place each; the walk lists those below the
first rule, each once and with its patterns, its repository and its captures behind it; and what is
noted of a listed rule is its position and its place. Repositories are in the order of their keys if
those of the definition are. -/
theorem arranged_markings (d : GrammarDefinition) (g : Grammar) (hd : ofDefinition d = .ok g) :
    (∀ s, g.Markings s → s.grammar = g ∧ s.order = g.ruleOrder ∧ s.Arranged) ∧
    (d.Keyed → ∀ rule ∈ g.rules, Entries.Increasing rule.repository) := by
  have h := forest_of_ofDefinition hd
  refine ⟨fun s hs => ?_, fun hkeyed rule hrule => repository_increasing hd hkeyed hrule⟩
  have hsettled := hs.settled h
  exact ⟨hsettled.grammar, hsettled.order, hsettled.arranged h⟩

end Grammar

end

namespace Grammar

/-- A region whose captures are given for both ends, with two rules for one group: of the rules for the
captures, the first for each end is on no list. -/
theorem arranged_markings_unlisted :
    let x : Part := .name { chars := ['x'] }
    let naming : String → RuleDefinition := fun value => { keys := { includeText := some value } }
    let named : String → RuleDefinition := fun name => { keys := { name := some name } }
    let region : RuleDefinition :=
      { keys := { beginText := some "a", endText := some "b" },
        captures := some [("01", named "p"), ("1", named "q")], patterns := some [naming "#k"] }
    let list : RuleDefinition := { patterns := some [naming "$self"] }
    let d : GrammarDefinition :=
      { scopeName := some "x", patterns := [region], repository := [("k", list)] }
    let g := ofScoped d ⟨[x], by decide⟩
    let s := g.marked.link "x" fun _ => none
    ofDefinition d = .ok g ∧ d.Keyed ∧ g.Markings s ∧ s.Arranged ∧ s.order = [0, 1, 6, 3, 5, 7, 8] ∧
      (∃ m, s.marks[2]? = some m ∧ m.index = none ∧ m.owner = none) ∧
      (∃ m, s.marks[6]? = some m ∧ m.index = some 2 ∧ m.owner = some 1) ∧
      ∀ rule ∈ g.rules, Entries.Increasing rule.repository := by
  intro x naming named region list d g s
  have hd : ofDefinition d = .ok g := rfl
  have hleaf := RuleDefinition.keyed_of_keys
  have hregion : region.Keyed := by
    refine RuleDefinition.keyed_of_captures ?_ _ (List.pairwise_pair.2 (by decide)) ?_
    · simpa using hleaf _
    · intro e he
      rcases List.mem_pair.1 he with rfl | rfl <;> exact hleaf _
  have hlist : list.Keyed := RuleDefinition.keyed_of_patterns (by simpa using hleaf _) _
  have hkeyed : d.Keyed := by
    refine ⟨?_, ?_, ?_⟩
    · simpa [d] using hregion
    · simp [d, Entries.Increasing]
    · simpa [d] using hlist
  have hs : g.Markings s := .link _ _ .loaded
  obtain ⟨hall, hrepositories⟩ := arranged_markings d g hd
  obtain ⟨hg, horder, hs'⟩ := hall s hs
  have hlisted : s.order = [0, 1, 6, 3, 5, 7, 8] := by
    rw [horder]
    decide +kernel +zetaReduce
  have hsize : s.marks.size = 9 := by
    rw [hs'.size_marks, hg]
    decide +kernel +zetaReduce
  obtain ⟨unlisted, hunlisted⟩ : ∃ m, s.marks[2]? = some m :=
    ⟨_, Array.getElem?_eq_getElem (by omega)⟩
  obtain ⟨naming', hnaming⟩ : ∃ m, s.marks[6]? = some m :=
    ⟨_, Array.getElem?_eq_getElem (by omega)⟩
  refine ⟨hd, hkeyed, hs, hs', hlisted, ⟨unlisted, hunlisted, ?_⟩, ⟨naming', hnaming, ?_, ?_⟩,
    hrepositories hkeyed⟩
  · obtain ⟨hindex, howner, -⟩ := hs'.unlisted hunlisted (by rw [hlisted]; decide)
    exact ⟨hindex, howner⟩
  · rw [hs'.index hnaming, hlisted]
    rfl
  · have hwalk : (6 : Nat) ∈ s.order := by
      rw [hlisted]
      decide
    obtain ⟨owner, -, howner, hplace⟩ := hs'.listed hnaming hwalk (by decide)
    have hrule : ∃ rule, g.rule? 1 = some rule ∧ ((6 : Nat), none) ∈ rule.children := by
      have hchild : (g.rule? 1).any fun rule => ((6 : Nat), none) ∈ rule.children := by
        decide +kernel +zetaReduce
      simpa [Option.any_eq_true] using hchild
    rw [howner, ((hplace 1 none).1 (hg ▸ hrule)).1]

end Grammar

end Highlight
