import Highlight.Proofs.Links
import Highlight.Proofs.Owners
import Highlight.Proofs.StackWalk

/-!
# The marks of a grammar's rules

A grammar can keep its links beside its rules and overwrite them whenever it is linked: where the walk
meets each rule, who owns it and under which key, and what it is bound to. Most of these marks are set
for the rules on the walk only, so what a later link does not set has to be reset, or else be the same
in every link.

- `Mark`, `MarkedGrammar`: what is kept beside the rules of a grammar.
- `MarkedGrammar.placeAll`: sets what depends on the rules alone, by the walk with a stack.
- `MarkedGrammar.bindAll`, `MarkedGrammar.link`: binds the includes, and linking as a whole.
- `MarkedGrammar.placeAll_eq`: where the walk meets the rules, whatever the marks were before.
- `MarkedGrammar.bind?_congr`: binding does not look at what rules were bound to before.
- `MarkedGrammar.bindAll_eq`: which marks are overwritten when the includes are bound.
- `MarkedGrammar.Settled`: the marks of a grammar that was loaded, and maybe linked.
- `MarkedGrammar.Settled.bind?_eq`: on such marks binding finds what it finds without marks.
-/

namespace Highlight

/-- What is kept beside a rule: its position on the walk, its owner, its key if the owner has it in its
repository, and what it is bound to. -/
@[ext]
structure Mark where
  index : Option Nat
  owner : Option RuleId
  key : Option String
  target : Option Target
deriving DecidableEq

namespace Mark

/-- Beside a rule that was never met. -/
def blank : Mark := ⟨none, none, none, none⟩

/-- Forgets where the rule was met, but not what it is bound to. -/
def reset (m : Mark) : Mark := { m with index := none, owner := none, key := none }

/-- Notes where the rule was met. -/
def place (m : Mark) (index : Nat) (visit : Visit) : Mark :=
  { m with index := some index, owner := visit.owner, key := visit.key }

end Mark

variable [Engine]

/-- A grammar with the marks of its rules. -/
@[ext]
structure MarkedGrammar where
  grammar : Grammar
  /-- The path at which the grammar was linked last. -/
  path : String
  /-- The marks by the numbers of the rules. -/
  marks : Array Mark
  /-- The numbers of the rules in the order of the walk. -/
  order : List RuleId
  /-- The repository entries met on the walk, the first of each key. -/
  repositoryIndex : Entries RuleId
  /-- The includes that named nothing when the grammar was linked last. -/
  unresolved : List Diagnostic

/-- Adds a visited rule to the entries if it has a key that is not among them. -/
def Visit.addEntry (entries : Entries RuleId) (visit : Visit) : Entries RuleId :=
  match visit.key with
  | some key => if (Entries.get? key entries).isSome then entries else entries.put key visit.rule
  | none => entries

namespace MarkedGrammar

/-- Notes that the walk meets a rule next. -/
def place (s : MarkedGrammar) (visit : Visit) : MarkedGrammar :=
  { s with
    marks := s.marks.modify visit.rule fun m => m.place s.order.length visit
    order := s.order ++ [visit.rule]
    repositoryIndex := visit.addEntry s.repositoryIndex }

/-- Walks through the rules and notes where each is met, after forgetting where they were met before. -/
def placeAll (s : MarkedGrammar) : MarkedGrammar :=
  (visitsByStack s.grammar.rules).foldl place
    { s with marks := s.marks.map Mark.reset, order := [], repositoryIndex := [] }

/-- The owner of a rule. -/
def owner? (s : MarkedGrammar) (id : RuleId) : Option RuleId := (s.marks[id]?).bind Mark.owner

/-- Looks a key up at a rule and at the rules around it, the innermost first, and then among the
entries met on the walk. Turns are for as many rules as there can be. -/
def lookUp? (s : MarkedGrammar) (key : String) : Nat → Option RuleId → Option RuleId
  | _, none => Entries.get? key s.repositoryIndex
  | 0, some _ => none
  | turns + 1, some id =>
    match s.grammar.rule? id with
    | none => none
    | some rule =>
      match Entries.get? key rule.repository with
      | some found => some found
      | none => lookUp? s key turns (s.owner? id)

/-- The entry that a key names at a rule. -/
def nearest? (s : MarkedGrammar) (site : RuleId) (key : String) : Option RuleId :=
  s.lookUp? key s.grammar.rules.size (s.owner? site)

/-- An entry of the grammar's repositories as other grammars see it. -/
def entry? (s : MarkedGrammar) (key : String) : Option RuleId :=
  match Entries.get? key (s.grammar.repositoryOf rootRule) with
  | some id => some id
  | none => Entries.get? key s.repositoryIndex

/-- What a reference at a rule names, when `find` answers with the grammars at other paths. -/
def bind? (s : MarkedGrammar) (find : String → Option MarkedGrammar) (site : RuleId) :
    Reference → Option Target
  | .base => some .base
  | .self => some (.rule ⟨s.path, rootRule⟩)
  | .entry key => (s.nearest? site key).map fun id => .rule ⟨s.path, id⟩
  | .external scope key =>
    match if scope = s.path then some s else find scope with
    | none => none
    | some other =>
      match key with
      | none => some (.rule ⟨scope, rootRule⟩)
      | some key => (other.entry? key).map fun id => .rule ⟨scope, id⟩

/-- What the includes on the walk name. -/
def bindings (s : MarkedGrammar) (find : String → Option MarkedGrammar) :
    List (RuleId × Option Target) :=
  s.order.filterMap fun id =>
    (s.grammar.include? id).map fun (_, reference) => (id, s.bind? find id reference)

/-- The diagnostics for the includes on the walk that name nothing. -/
def missing (s : MarkedGrammar) (find : String → Option MarkedGrammar) : List Diagnostic :=
  s.order.filterMap fun id =>
    (s.grammar.include? id).bind fun (rule, reference) =>
      match s.bind? find id reference with
      | some _ => none
      | none => some ⟨rule.location, .unresolvedReference reference.text⟩

/-- Notes what a rule is bound to. -/
def setTarget (marks : Array Mark) (binding : RuleId × Option Target) : Array Mark :=
  marks.modify binding.1 fun m => { m with target := binding.2 }

/-- The grammar at a path, where its rules are met anew. -/
def placedAt (s : MarkedGrammar) (path : String) : MarkedGrammar := placeAll { s with path := path }

/-- Notes what the includes on the walk are bound to. -/
def bindAll (s : MarkedGrammar) (find : String → Option MarkedGrammar) : MarkedGrammar :=
  { s with
    marks := (s.bindings find).foldl setTarget s.marks
    unresolved := s.missing find }

/-- Links the grammar at a path: notes where the walk meets the rules, and then what the includes on
the walk are bound to. -/
def link (s : MarkedGrammar) (path : String) (find : String → Option MarkedGrammar) :
    MarkedGrammar :=
  (s.placedAt path).bindAll find

end MarkedGrammar

/-- The grammar with the marks that loading sets: where its rules are met. -/
def Grammar.marked (g : Grammar) : MarkedGrammar :=
  MarkedGrammar.placeAll ⟨g, g.scopeName.text, .replicate g.rules.size .blank, [], [], []⟩

/-! ## Where the rules are met -/

namespace Grammar

variable {g : Grammar}

/-- The mark of a rule that is bound to a target. -/
def markOf (g : Grammar) (id : RuleId) (target : Option Target) : Mark :=
  ⟨g.index? id, g.owner? id, (g.visit? id).bind Visit.key, target⟩

/-- The entries of a grammar are added one after the other, as the walk meets them. -/
theorem repositoryIndex_eq : g.repositoryIndex = g.visits.foldl (fun e v => v.addEntry e) [] := rfl

omit [Engine] in
/-- A key that is among the entries keeps its rule. -/
theorem get?_addEntry (key : String) (visit : Visit) (entries : Entries RuleId) :
    Entries.get? key (visit.addEntry entries) = (Entries.get? key entries).or
      (if visit.key = some key then some visit.rule else none) := by
  unfold Visit.addEntry
  cases visit.key with
  | none => simp
  | some other =>
    by_cases heq : other = key
    · subst heq
      cases hget : Entries.get? other entries with
      | none => simp [hget]
      | some id => simp [hget]
    · simp only [Option.some.injEq, heq, if_false, Option.or_none]
      split
      · rfl
      · exact Entries.get?_put_other (Ne.symm heq) _ _

omit [Engine] in
/-- Of the rules that were met under a key the first is among the entries. -/
theorem get?_foldl_addEntry (key : String) (visits : List Visit) (entries : Entries RuleId) :
    Entries.get? key (visits.foldl (fun e v => v.addEntry e) entries) =
      (Entries.get? key entries).or ((visits.find? fun v => v.key == some key).map Visit.rule) := by
  induction visits generalizing entries with
  | nil => simp
  | cons visit visits ih =>
    rw [List.foldl_cons, ih, get?_addEntry, Option.or_assoc]
    by_cases hkey : visit.key = some key
    · simp [hkey]
    · simp [hkey]

/-- Among the entries a key names the first rule that the walk meets under it. -/
theorem get?_repositoryIndex (key : String) :
    Entries.get? key g.repositoryIndex = g.anywhere? key := by
  rw [repositoryIndex_eq, get?_foldl_addEntry]
  rfl

end Grammar

namespace MarkedGrammar

variable {s : MarkedGrammar}

/-- The mark of a rule when some visits have been noted, before which there was a number of others. -/
def notedMark (visits : List Visit) (before id : Nat) (m : Mark) : Mark :=
  match visits.find? fun v => v.rule == id with
  | some visit => ⟨(visits.findIdx? fun v => v.rule == id).map (before + ·), visit.owner, visit.key,
      m.target⟩
  | none => m

omit [Engine] in
/-- A rule that is not met keeps its mark. -/
theorem notedMark_of_notMem {visits : List Visit} {id : RuleId} (h : id ∉ visits.map Visit.rule)
    (before : Nat) (m : Mark) : notedMark visits before id m = m := by
  have hnone : (visits.find? fun v => v.rule == id) = none := by
    rw [List.find?_eq_none]
    intro visit hvisit heq
    exact h (List.mem_map.2 ⟨visit, hvisit, by simpa using heq⟩)
  rw [notedMark, hnone]

omit [Engine] in
/-- A rule that is met next is noted at the next position. -/
theorem notedMark_cons_self (visit : Visit) (visits : List Visit) (before : Nat) (m : Mark) :
    notedMark (visit :: visits) before visit.rule m = m.place before visit := by
  simp [notedMark, Mark.place, List.findIdx?_cons]

omit [Engine] in
/-- Meeting another rule only moves the position on. -/
theorem notedMark_cons_other {visit : Visit} {id : RuleId} (h : visit.rule ≠ id)
    (visits : List Visit) (before : Nat) (m : Mark) :
    notedMark (visit :: visits) before id m = notedMark visits (before + 1) id m := by
  have hposition : (visits.findIdx? fun v => v.rule == id).map (before + 1 + ·)
      = ((visits.findIdx? fun v => v.rule == id).map (· + 1)).map (before + ·) := by
    rw [Option.map_map]
    congr 1
    funext n
    show before + 1 + n = before + (n + 1)
    omega
  simp [notedMark, h, List.findIdx?_cons, hposition]

/-- Noting several visits, when no rule is met twice. -/
theorem foldl_place {visits : List Visit} (hnodup : (visits.map Visit.rule).Nodup)
    (s : MarkedGrammar) : visits.foldl place s = { s with
      marks := s.marks.mapIdx fun id m => notedMark visits s.order.length id m
      order := s.order ++ visits.map Visit.rule
      repositoryIndex := visits.foldl (fun e v => v.addEntry e) s.repositoryIndex } := by
  induction visits generalizing s with
  | nil =>
    ext1
    · rfl
    · rfl
    · refine Array.ext_getElem? fun id => ?_
      simp [notedMark]
    · simp
    · rfl
    · rfl
  | cons visit visits ih =>
    obtain ⟨hnew, hnodup⟩ := List.nodup_cons.1 hnodup
    rw [List.foldl_cons, ih hnodup]
    ext1
    · rfl
    · rfl
    · refine Array.ext_getElem? fun id => ?_
      have hmarks : (s.place visit).marks =
        s.marks.modify visit.rule fun m => m.place s.order.length visit := rfl
      simp only [hmarks, Array.getElem?_mapIdx, Array.getElem?_modify]
      by_cases hid : visit.rule = id
      · subst hid
        rw [if_pos rfl, Option.map_map]
        refine Option.map_congr fun m _ => ?_
        rw [notedMark_cons_self]
        exact notedMark_of_notMem hnew _ _
      · rw [if_neg hid]
        refine Option.map_congr fun m _ => ?_
        rw [notedMark_cons_other hid]
        simp [place]
    · simp [place]
    · rfl
    · rfl

/-- **Where the walk meets the rules does not depend on the marks from before.** -/
theorem placeAll_eq (h : Forest 0 s.grammar.rules.toList [rootRule]) : s.placeAll = { s with
    marks := s.marks.mapIdx fun id m => s.grammar.markOf id m.target
    order := s.grammar.ruleOrder
    repositoryIndex := s.grammar.repositoryIndex } := by
  have hvisits : visitsByStack s.grammar.rules = s.grammar.visits := by
    rw [visitsByStack_eq h, s.grammar.visits_eq]
  unfold placeAll
  rw [hvisits, foldl_place (Grammar.ruleOrder_nodup h)]
  ext1
  · rfl
  · rfl
  · refine Array.ext_getElem? fun id => ?_
    simp only [Array.getElem?_mapIdx, Array.getElem?_map, Option.map_map]
    refine Option.map_congr fun m _ => ?_
    show notedMark s.grammar.visits 0 id m.reset = s.grammar.markOf id m.target
    unfold notedMark Grammar.markOf Grammar.owner? Grammar.index? Grammar.visit?
    cases hfind : s.grammar.visits.find? fun v => v.rule == id with
    | none =>
      have hposition : (s.grammar.visits.findIdx? fun v => v.rule == id) = none := by
        rw [List.findIdx?_eq_none_iff]
        exact fun v hv => by simpa using List.find?_eq_none.1 hfind v hv
      simp [hposition, Mark.reset]
    | some visit =>
      simp [Mark.reset]
  · simp [Grammar.ruleOrder]
  · rfl
  · rfl

/-- Placing a grammar at a path sets the path and meets its rules anew. -/
theorem placedAt_eq (h : Forest 0 s.grammar.rules.toList [rootRule]) (path : String) :
    s.placedAt path = { s with
      path := path
      marks := s.marks.mapIdx fun id m => s.grammar.markOf id m.target
      order := s.grammar.ruleOrder
      repositoryIndex := s.grammar.repositoryIndex } :=
  placeAll_eq (s := { s with path := path }) h

/-! ## What the includes are bound to -/

variable {s' : MarkedGrammar} {find : String → Option MarkedGrammar}

/-- Two states of a grammar that agree on all but what its rules are bound to. -/
structure SamePlaces (s s' : MarkedGrammar) : Prop where
  grammar : s.grammar = s'.grammar
  path : s.path = s'.path
  owner? : ∀ id, s.owner? id = s'.owner? id
  order : s.order = s'.order
  repositoryIndex : s.repositoryIndex = s'.repositoryIndex

/-- Going up from owner to owner looks at owners and entries only. -/
theorem lookUp?_congr (h : SamePlaces s s') (key : String) (turns : Nat) (current : Option RuleId) :
    s.lookUp? key turns current = s'.lookUp? key turns current := by
  induction turns generalizing current with
  | zero =>
    cases current with
    | none => exact congrArg (Entries.get? key) h.repositoryIndex
    | some id => rfl
  | succ turns ih =>
    cases current with
    | none => exact congrArg (Entries.get? key) h.repositoryIndex
    | some id => rw [lookUp?, lookUp?, h.grammar, h.owner?, ih]

theorem entry?_congr (h : SamePlaces s s') (key : String) : s.entry? key = s'.entry? key := by
  unfold MarkedGrammar.entry?
  rw [h.grammar, h.repositoryIndex]

/-- **Binding does not look at what rules were bound to before.** -/
theorem bind?_congr (h : SamePlaces s s') (site : RuleId) (reference : Reference) :
    s.bind? find site reference = s'.bind? find site reference := by
  cases reference with
  | base => rfl
  | self => rw [bind?, bind?, h.path]
  | entry key => rw [bind?, bind?, nearest?, nearest?, lookUp?_congr h, h.path, h.grammar, h.owner?]
  | external scope key =>
    rw [bind?, bind?, h.path]
    by_cases hscope : scope = s'.path
    · rw [if_pos hscope, if_pos hscope]
      cases key with
      | none => rfl
      | some key => exact congrArg (Option.map _) (entry?_congr h key)
    · rw [if_neg hscope, if_neg hscope]

/-- What a rule is bound to, if it is an include on the walk. -/
def bound? (s : MarkedGrammar) (find : String → Option MarkedGrammar) (id : RuleId) :
    Option (Option Target) :=
  if id ∈ s.order then (s.grammar.include? id).map fun (_, reference) => s.bind? find id reference
  else none

theorem bound?_congr (h : SamePlaces s s') (id : RuleId) : s.bound? find id = s'.bound? find id := by
  rw [bound?, bound?, h.order, h.grammar]
  simp only [bind?_congr h]

/-- Which includes are reported as missing does not depend on earlier targets either. -/
theorem missing_congr (h : SamePlaces s s') : s.missing find = s'.missing find := by
  rw [missing, missing, h.order, h.grammar]
  simp only [bind?_congr h]

omit [Engine] in
/-- Noting what several rules are bound to, when none is noted twice. -/
theorem getElem?_foldl_setTarget {bindings : List (RuleId × Option Target)}
    (hnodup : (bindings.map Prod.fst).Nodup) (marks : Array Mark) (id : RuleId) :
    (bindings.foldl setTarget marks)[id]? = (marks[id]?).map fun m =>
      { m with target := (bindings.lookup id).getD m.target } := by
  induction bindings generalizing marks with
  | nil => simp
  | cons binding bindings ih =>
    obtain ⟨other, target⟩ := binding
    obtain ⟨hnew, hnodup⟩ := List.nodup_cons.1 hnodup
    rw [List.foldl_cons, ih hnodup, setTarget, Array.getElem?_modify, List.lookup_cons]
    by_cases hid : other = id
    · subst hid
      have habsent : bindings.lookup other = none := by
        rw [List.lookup_eq_none_iff]
        intro p hp
        have hmem : p.1 ∈ bindings.map Prod.fst := List.mem_map_of_mem hp
        have hne : other ≠ p.1 := fun heq => hnew (heq ▸ hmem)
        simpa using hne
      rw [habsent, if_pos rfl, Option.map_map]
      simp [Function.comp_def]
    · have hne : (id == other) = false := by simpa using Ne.symm hid
      rw [if_neg hid, hne]

/-- A rule has a binding if it is an include on the walk. -/
theorem lookup_bindings (s : MarkedGrammar) (find : String → Option MarkedGrammar) (id : RuleId) :
    (s.bindings find).lookup id = s.bound? find id := by
  unfold bindings bound?
  induction s.order with
  | nil => rfl
  | cons other order ih =>
    cases hinclude : s.grammar.include? other with
    | none =>
      rw [List.filterMap_cons_none (by rw [hinclude]; rfl), ih]
      by_cases hid : id = other
      · subst hid
        simp [hinclude]
      · simp [hid]
    | some found =>
      rw [List.filterMap_cons_some (by rw [hinclude]; rfl), List.lookup_cons]
      by_cases hid : id = other
      · subst hid
        simp [hinclude]
      · have hne : (id == other) = false := by simpa using hid
        rw [hne, ih]
        simp [hid]

/-- Bindings are noted in the order of the walk, each rule at most once. -/
theorem bindings_sublist (s : MarkedGrammar) (find : String → Option MarkedGrammar) :
    ((s.bindings find).map Prod.fst).Sublist s.order := by
  unfold bindings
  induction s.order with
  | nil => exact List.Sublist.slnil
  | cons id order ih =>
    cases hinclude : s.grammar.include? id with
    | none =>
      rw [List.filterMap_cons_none (by rw [hinclude]; rfl)]
      exact ih.cons id
    | some found =>
      rw [List.filterMap_cons_some (by rw [hinclude]; rfl)]
      exact ih.cons_cons id

/-- **What the includes were bound to before is overwritten.** -/
theorem bindAll_eq (h : s.order.Nodup) (find : String → Option MarkedGrammar) :
    s.bindAll find = { s with
      marks := s.marks.mapIdx fun id m => { m with target := (s.bound? find id).getD m.target }
      unresolved := s.missing find } := by
  have hnodup := List.Nodup.sublist (bindings_sublist s find) h
  ext1
  · rfl
  · rfl
  · refine Array.ext_getElem? fun id => ?_
    show ((s.bindings find).foldl setTarget s.marks)[id]? = _
    rw [getElem?_foldl_setTarget hnodup, lookup_bindings, Array.getElem?_mapIdx]
  · rfl
  · rfl
  · rfl

/-- What is no include on the walk is not bound. -/
theorem bound?_eq_none_iff {id : RuleId} : s.bound? find id = none ↔
    id ∉ s.order ∨ s.grammar.include? id = none := by
  unfold bound?
  by_cases hid : id ∈ s.order
  · simp [hid]
  · simp [hid]

/-! ## Marks after loading and linking -/

/-- The marks of a grammar that was loaded and maybe linked: where the walk meets its rules, and what
its includes are bound to, if they are on the walk. -/
structure Settled (g : Grammar) (s : MarkedGrammar) : Prop where
  grammar : s.grammar = g
  size : s.marks.size = g.rules.size
  mark : ∀ {id : RuleId} {m : Mark}, s.marks[id]? = some m → m = g.markOf id m.target
  unbound : ∀ {id : RuleId} {m : Mark}, s.marks[id]? = some m →
    id ∉ g.ruleOrder ∨ g.include? id = none → m.target = none
  order : s.order = g.ruleOrder
  repositoryIndex : s.repositoryIndex = g.repositoryIndex

variable {g : Grammar}

/-- Loading leaves settled marks: nothing is bound. -/
theorem settled_marked (h : Forest 0 g.rules.toList [rootRule]) : Settled g g.marked := by
  have hmarks : ∀ {id : RuleId} {m : Mark}, g.marked.marks[id]? = some m → m = g.markOf id none := by
    intro id m hm
    unfold Grammar.marked at hm
    rw [placeAll_eq h] at hm
    obtain ⟨blank, hblank, rfl⟩ := Option.map_eq_some_iff.1 (Array.getElem?_mapIdx .. ▸ hm)
    obtain ⟨-, rfl⟩ := Array.getElem?_eq_some_iff.1 hblank
    rw [Array.getElem_replicate]
    rfl
  have heq := placeAll_eq
    (s := ⟨g, g.scopeName.text, .replicate g.rules.size .blank, [], [], []⟩) h
  refine ⟨congrArg MarkedGrammar.grammar heq, ?_, fun hm => ?_, fun hm _ => ?_,
    congrArg MarkedGrammar.order heq, congrArg MarkedGrammar.repositoryIndex heq⟩
  · refine (congrArg (fun r => r.marks.size) heq).trans ?_
    simp
  · obtain rfl := hmarks hm
    rfl
  · obtain rfl := hmarks hm
    rfl

namespace Settled

variable (hs : Settled g s)
include hs

/-- Meeting the rules anew sets the same places, and what was bound is still on the walk. -/
theorem placedAt (h : Forest 0 g.rules.toList [rootRule]) (path : String) :
    Settled g (s.placedAt path) := by
  obtain rfl := hs.grammar
  rw [placedAt_eq h]
  refine ⟨rfl, ?_, fun {id m} hm => ?_, fun {id m} hm hnot => ?_, rfl, rfl⟩
  · simpa using hs.size
  · obtain ⟨old, -, rfl⟩ := Option.map_eq_some_iff.1 (Array.getElem?_mapIdx .. ▸ hm)
    rfl
  · obtain ⟨old, hold, rfl⟩ := Option.map_eq_some_iff.1 (Array.getElem?_mapIdx .. ▸ hm)
    show old.target = none
    exact hs.unbound hold hnot

/-- Binding overwrites what was bound, and binds nothing else. -/
theorem bindAll (h : Forest 0 g.rules.toList [rootRule]) (find : String → Option MarkedGrammar) :
    Settled g (s.bindAll find) := by
  have hnodup : s.order.Nodup := hs.order ▸ Grammar.ruleOrder_nodup h
  rw [bindAll_eq hnodup]
  refine ⟨hs.grammar, ?_, fun {id m} hm => ?_, fun {id m} hm hnot => ?_, hs.order,
    hs.repositoryIndex⟩
  · simpa using hs.size
  · obtain ⟨old, hold, rfl⟩ := Option.map_eq_some_iff.1 (Array.getElem?_mapIdx .. ▸ hm)
    rw [hs.mark hold]
    rfl
  · obtain ⟨old, hold, rfl⟩ := Option.map_eq_some_iff.1 (Array.getElem?_mapIdx .. ▸ hm)
    have hnone : s.bound? find id = none := by
      rwa [bound?_eq_none_iff, hs.order, hs.grammar]
    show (s.bound? find id).getD old.target = none
    rw [hnone]
    exact hs.unbound hold hnot

/-- Linking at a path keeps marks settled, whatever they were bound to before. -/
theorem link (h : Forest 0 g.rules.toList [rootRule]) (path : String)
    (find : String → Option MarkedGrammar) : Settled g (s.link path find) :=
  (hs.placedAt h path).bindAll h find

theorem getElem?_of_lt {id : RuleId} (hid : id < g.rules.size) :
    ∃ m, s.marks[id]? = some m ∧ m = g.markOf id m.target := by
  rw [← hs.size] at hid
  exact ⟨_, Array.getElem?_eq_getElem hid, hs.mark (Array.getElem?_eq_getElem hid)⟩

/-- The owner in the mark of a rule is its owner on the walk. -/
theorem owner?_eq (id : RuleId) : s.owner? id = g.owner? id := by
  by_cases hid : id < g.rules.size
  · obtain ⟨m, hm, heq⟩ := hs.getElem?_of_lt hid
    rw [MarkedGrammar.owner?, hm, heq]
    rfl
  · rw [MarkedGrammar.owner?, Array.getElem?_eq_none (hs.size ▸ Nat.not_lt.1 hid)]
    cases howner : g.owner? id with
    | none => rfl
    | some owner =>
      -- a rule with an owner is on the walk, so it exists
      obtain ⟨visit, hvisit, -⟩ := Option.bind_eq_some_iff.1 howner
      obtain ⟨hmem, rfl⟩ := Grammar.mem_visits_of_visit? hvisit
      obtain ⟨rule, hrule⟩ := Option.isSome_iff_exists.1 (Grammar.rule_of_mem_visits hmem)
      exact absurd (Array.getElem?_eq_some_iff.1 hrule).1 hid

/-- Settled marks of one grammar differ in targets only. -/
theorem samePlaces {s' : MarkedGrammar} (hs' : Settled g s') (hpath : s.path = s'.path) :
    SamePlaces s s' := by
  refine ⟨hs.grammar.trans hs'.grammar.symm, hpath, fun id => ?_, hs.order.trans hs'.order.symm,
    hs.repositoryIndex.trans hs'.repositoryIndex.symm⟩
  rw [hs.owner?_eq, hs'.owner?_eq]

/-- As many turns as there are rules are enough for going up from owner to owner. -/
theorem lookUp?_eq (h : Forest 0 g.rules.toList [rootRule]) (key : String) (turns : Nat)
    (current : Option RuleId) (hturns : ∀ id, current = some id → id < turns ∧ id ∈ g.ruleOrder) :
    s.lookUp? key turns current =
      match g.nearestFrom? key turns current with
      | some found => some found
      | none => g.anywhere? key := by
  have hnowhere : Entries.get? key s.repositoryIndex = g.anywhere? key := by
    rw [hs.repositoryIndex, Grammar.get?_repositoryIndex]
  induction turns generalizing current with
  | zero =>
    cases current with
    | none => exact hnowhere
    | some id => exact absurd (hturns id rfl).1 (Nat.not_lt_zero id)
  | succ turns ih =>
    cases current with
    | none => exact hnowhere
    | some id =>
      obtain ⟨hlt, hwalk⟩ := hturns id rfl
      obtain ⟨rule, hrule⟩ := Option.isSome_iff_exists.1 (Grammar.rule_of_mem_ruleOrder hwalk)
      have hrepository : g.repositoryOf id = rule.repository := by
        rw [Grammar.repositoryOf, hrule]
      rw [lookUp?, hs.grammar, hrule, Grammar.nearestFrom?, hrepository]
      cases hentry : Entries.get? key rule.repository with
      | some found => simp only [hentry]
      | none =>
        simp only [hentry]
        rw [hs.owner?_eq]
        refine ih _ fun owner howner => ⟨?_, Grammar.owner_mem_ruleOrder howner⟩
        exact Nat.lt_of_lt_of_le (Grammar.owner_lt h howner) (Nat.le_of_lt_succ hlt)

/-- What a key names at a rule is what it names without marks. -/
theorem nearest?_eq (h : Forest 0 g.rules.toList [rootRule]) (site : RuleId) (key : String) :
    s.nearest? site key = g.nearest? site key := by
  unfold MarkedGrammar.nearest? Grammar.nearest?
  rw [hs.grammar, hs.owner?_eq]
  exact hs.lookUp?_eq h key _ _ fun owner howner =>
    ⟨Grammar.owner_lt_size howner, Grammar.owner_mem_ruleOrder howner⟩

theorem entry?_eq (key : String) : s.entry? key = g.entry? key := by
  unfold MarkedGrammar.entry?
  rw [hs.grammar, hs.repositoryIndex, Grammar.get?_repositoryIndex]
  rfl

/-- Binding in place is binding. -/
theorem bind?_eq (h : Forest 0 g.rules.toList [rootRule]) {find : String → Option MarkedGrammar}
    (hfind : ∀ scope other, find scope = some other → Settled other.grammar other) (site : RuleId)
    (reference : Reference) : s.bind? find site reference =
      g.bind? s.path (fun scope => (find scope).map MarkedGrammar.grammar) site reference := by
  cases reference with
  | base => rfl
  | self => rfl
  | entry key => rw [MarkedGrammar.bind?, Grammar.bind?, hs.nearest?_eq h]
  | external scope key =>
    rw [MarkedGrammar.bind?, Grammar.bind?]
    by_cases hscope : scope = s.path
    · rw [if_pos hscope, if_pos hscope]
      cases key with
      | none => rfl
      | some key => exact congrArg (Option.map _) (hs.entry?_eq key)
    · rw [if_neg hscope, if_neg hscope]
      cases hother : find scope with
      | none => rfl
      | some other =>
        cases key with
        | none => rfl
        | some key => exact congrArg (Option.map _) ((hfind scope other hother).entry?_eq key)

end Settled

end MarkedGrammar

end Highlight
