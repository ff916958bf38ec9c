import Highlight.Proofs.Arena

/-!
# Maps in the order of their keys

The maps of a definition are held in the order of their keys, and reading a definition from JSON puts
them into this order. A repository is loaded entry by entry, and an entry is left out if it is no rule.
So the repositories of a loaded grammar's rules are in the order of their keys as well.

- `RuleDefinition.Keyed`, `GrammarDefinition.Keyed`: all maps in a definition are in order.
- `GrammarDefinition.keyed_of_ofJson?`: they are, if the definition is read from JSON.
- `loadRepository_inOrder`: what is loaded of a repository has its keys in the order of the definition.
- `Grammar.repository_increasing`: the repositories of a grammar that loads.
-/

namespace Highlight

namespace RuleDefinition

/-- The maps of a rule, as far as it has them. -/
def maps (d : RuleDefinition) : List (Entries RuleDefinition) :=
  d.captures.toList ++ d.beginCaptures.toList ++ d.endCaptures.toList ++ d.whileCaptures.toList
    ++ d.repository.toList

/-- The maps of a rule and of all rules in it are in the order of their keys. -/
inductive Keyed : RuleDefinition → Prop
  | intro {d : RuleDefinition} : (∀ rules ∈ d.patterns, ∀ rule ∈ rules, Keyed rule) →
      (∀ entries ∈ d.maps, Entries.Increasing entries) →
      (∀ entries ∈ d.maps, ∀ e ∈ entries, Keyed e.2) → Keyed d

section

variable {patterns : Option (List RuleDefinition)}
  (hpatterns : ∀ rules ∈ patterns, ∀ rule ∈ rules, Keyed rule) (keys : RuleKeys)
include hpatterns

/-- A rule without maps, with rules in it that are in order. -/
theorem keyed_of_patterns : Keyed { keys := keys, patterns := patterns } :=
  .intro hpatterns nofun nofun

/-- A rule with a single map. -/
theorem keyed_of_captures {entries : Entries RuleDefinition} (hincreasing : entries.Increasing)
    (hentries : ∀ e ∈ entries, Keyed e.2) :
    Keyed { keys := keys, captures := some entries, patterns := patterns } := by
  have hmaps : maps { keys := keys, captures := some entries, patterns := patterns } = [entries] := rfl
  refine .intro hpatterns ?_ ?_ <;> rw [hmaps]
  · exact List.forall_mem_singleton.2 hincreasing
  · exact List.forall_mem_singleton.2 hentries

end

theorem keyed_of_keys : ∀ keys : RuleKeys, Keyed { keys := keys } := keyed_of_patterns nofun

end RuleDefinition

/-- All maps in a grammar's definition are in the order of their keys. -/
structure GrammarDefinition.Keyed (d : GrammarDefinition) : Prop where
  patterns : ∀ rule ∈ d.patterns, rule.Keyed
  increasing : Entries.Increasing d.repository
  repository : ∀ e ∈ d.repository, e.2.Keyed

/-! ## Definitions that are read from JSON -/

namespace Entries

variable {α : Type}

theorem ofList_eq (pairs : List (String × α)) :
    ofList pairs = pairs.foldl (fun entries e => put e.1 e.2 entries) [] := rfl

/-- A map that is put together entry by entry is in order. -/
theorem increasing_ofList (pairs : List (String × α)) : Increasing (ofList pairs) := by
  have hfold : ∀ entries : Entries α, Increasing entries →
      Increasing (pairs.foldl (fun entries e => put e.1 e.2 entries) entries) := by
    induction pairs with
    | nil => exact fun _ h => h
    | cons e pairs ih => exact fun entries h => ih _ (h.put e.1 e.2)
  rw [ofList_eq]
  exact hfold [] List.Pairwise.nil

/-- What a map holds is among the pairs that it was put together from. -/
theorem mem_of_mem_ofList {pairs : List (String × α)} {e : String × α} (h : e ∈ ofList pairs) :
    e ∈ pairs := by
  have hfold : ∀ (pairs : List (String × α)) (entries : Entries α),
      e ∈ pairs.foldl (fun entries e => put e.1 e.2 entries) entries → e ∈ entries ∨ e ∈ pairs := by
    intro pairs
    induction pairs with
    | nil => exact fun _ hmem => .inl hmem
    | cons pair pairs ih =>
      intro entries hmem
      rcases ih _ hmem with hput | hmem
      · rcases mem_put hput with rfl | hmem
        · exact .inr List.mem_cons_self
        · exact .inl hmem
      · exact .inr (List.mem_cons_of_mem _ hmem)
  rw [ofList_eq] at h
  rcases hfold pairs [] h with hmem | hmem
  · cases hmem
  · exact hmem

end Entries

/-- All of a list that is read item by item has been read. -/
theorem exists_of_mapM {α β : Type} {read : α → Option β} {items : List α} {values : List β}
    (h : items.mapM read = some values) : ∀ value ∈ values, ∃ item, read item = some value := by
  induction items generalizing values with
  | nil =>
    cases h
    exact nofun
  | cons item items ih =>
    rw [List.mapM_cons] at h
    obtain ⟨first, hfirst, h⟩ := Option.bind_eq_some_iff.1 h
    obtain ⟨rest, hrest, h⟩ := Option.bind_eq_some_iff.1 h
    cases h
    intro value hvalue
    rcases List.mem_cons.1 hvalue with rfl | hvalue
    · exact ⟨item, hfirst⟩
    · exact ih hrest value hvalue

section

variable {α : Type} {read : Json → Option α} {budget : Nat} {j : Json}

theorem exists_of_list? {values : List α} (h : list? read budget j = some values) :
    ∀ value ∈ values, ∃ j, read j = some value := by
  unfold list? at h
  split at h
  · split at h
    · cases h
    · exact exists_of_mapM h
  · cases h

/-- A map that is read is in order, and all its values have been read. -/
theorem increasing_of_entries? {entries : Entries α} (h : entries? read budget j = some entries) :
    Entries.Increasing entries ∧ ∀ e ∈ entries, ∃ j, read j = some e.2 := by
  unfold entries? at h
  split at h
  · split at h
    · cases h
    · obtain ⟨pairs, hpairs, hentries⟩ := Option.bind_eq_some_iff.1 h
      cases hentries
      refine ⟨Entries.increasing_ofList pairs, fun e he => ?_⟩
      obtain ⟨⟨key, value⟩, hread⟩ := exists_of_mapM hpairs e (Entries.mem_of_mem_ofList he)
      obtain ⟨text, -, hread⟩ := Option.bind_eq_some_iff.1 hread
      obtain ⟨rule, hrule, hread⟩ := Option.bind_eq_some_iff.1 hread
      cases hread
      exact ⟨value, hrule⟩
  · cases h

/-- A value that was read was read from a field. -/
theorem exists_of_optional {name : String} {fields : List (String × Json)} {value : Option α}
    (h : Json.optional read name fields = some value) :
    ∀ x ∈ value, ∃ j, read j = some x := by
  unfold Json.optional at h
  split at h
  · cases h
    exact nofun
  · cases h
    exact nofun
  · rename_i j _ _
    obtain ⟨x, hx, rfl⟩ := Option.map_eq_some_iff.1 h
    intro y hy
    cases hy
    exact ⟨j, hx⟩

/-- A field that is missing has its default. -/
theorem eq_or_exists_of_defaulting {name : String} {fields : List (String × Json)} {default value : α}
    (h : Json.defaulting default read name fields = some value) :
    value = default ∨ ∃ j, read j = some value := by
  unfold Json.defaulting at h
  split at h
  · cases h
    exact .inl rfl
  · rename_i j _
    exact .inr ⟨j, h⟩

end

namespace RuleDefinition

/-- The maps of a rule that is read from JSON are in order. -/
theorem keyed_of_ofJson? : ∀ {budget : Nat} {j : Json} {d : RuleDefinition},
    ofJson? budget j = some d → d.Keyed
  | 0, _, _, h => by cases h
  | 1, _, _, h => by cases h
  | budget + 2, j, d, h => by
    unfold ofJson? at h
    obtain ⟨fields, -, h⟩ := Option.bind_eq_some_iff.1 h
    -- what is read of a map, if it is there
    have hmap : ∀ {name : String} {value : Option (Entries RuleDefinition)},
        Json.optional (entries? (ofJson? budget) budget) name fields = some value →
        ∀ entries ∈ value, Entries.Increasing entries ∧ ∀ e ∈ entries, Keyed e.2 := by
      intro name value hvalue entries hentries
      obtain ⟨j, hj⟩ := exists_of_optional hvalue entries hentries
      obtain ⟨hincreasing, hread⟩ := increasing_of_entries? hj
      refine ⟨hincreasing, fun e he => ?_⟩
      obtain ⟨j, hj⟩ := hread e he
      exact keyed_of_ofJson? hj
    obtain ⟨comment, -, h⟩ := Option.bind_eq_some_iff.1 h
    obtain ⟨name, -, h⟩ := Option.bind_eq_some_iff.1 h
    obtain ⟨contentName, -, h⟩ := Option.bind_eq_some_iff.1 h
    obtain ⟨matchText, -, h⟩ := Option.bind_eq_some_iff.1 h
    obtain ⟨beginText, -, h⟩ := Option.bind_eq_some_iff.1 h
    obtain ⟨endText, -, h⟩ := Option.bind_eq_some_iff.1 h
    obtain ⟨whileText, -, h⟩ := Option.bind_eq_some_iff.1 h
    obtain ⟨includeText, -, h⟩ := Option.bind_eq_some_iff.1 h
    obtain ⟨captures, hcaptures, h⟩ := Option.bind_eq_some_iff.1 h
    obtain ⟨beginCaptures, hbegin, h⟩ := Option.bind_eq_some_iff.1 h
    obtain ⟨endCaptures, hend, h⟩ := Option.bind_eq_some_iff.1 h
    obtain ⟨whileCaptures, hwhile, h⟩ := Option.bind_eq_some_iff.1 h
    obtain ⟨patterns, hpatterns, h⟩ := Option.bind_eq_some_iff.1 h
    obtain ⟨repository, hrepository, h⟩ := Option.bind_eq_some_iff.1 h
    obtain ⟨endLast, -, h⟩ := Option.bind_eq_some_iff.1 h
    obtain ⟨disabled, -, h⟩ := Option.bind_eq_some_iff.1 h
    cases h
    -- the maps that were read are those of the rule
    have hmaps : ∀ entries ∈ maps ⟨⟨comment, name, contentName, matchText, beginText, endText,
        whileText, includeText, endLast.getD false, disabled.getD false⟩, captures, beginCaptures,
        endCaptures, whileCaptures, patterns, repository⟩,
        Entries.Increasing entries ∧ ∀ e ∈ entries, Keyed e.2 := by
      intro entries hentries
      simp only [maps, List.mem_append, Option.mem_toList] at hentries
      rcases hentries with (((h | h) | h) | h) | h
      · exact hmap hcaptures entries h
      · exact hmap hbegin entries h
      · exact hmap hend entries h
      · exact hmap hwhile entries h
      · exact hmap hrepository entries h
    refine .intro (fun rules hrules rule hrule => ?_) (fun entries h => (hmaps entries h).1)
      fun entries h => (hmaps entries h).2
    obtain ⟨j, hj⟩ := exists_of_optional hpatterns rules hrules
    obtain ⟨j, hj⟩ := exists_of_list? hj rule hrule
    exact keyed_of_ofJson? hj

end RuleDefinition

/-- The maps of a grammar that is read from JSON are in order. -/
theorem GrammarDefinition.keyed_of_ofJson? {j : Json} {d : GrammarDefinition}
    (h : ofJson? j = some d) : d.Keyed := by
  unfold ofJson? at h
  obtain ⟨fields, -, h⟩ := Option.bind_eq_some_iff.1 h
  obtain ⟨name, -, h⟩ := Option.bind_eq_some_iff.1 h
  obtain ⟨scopeName, -, h⟩ := Option.bind_eq_some_iff.1 h
  obtain ⟨fileTypes, -, h⟩ := Option.bind_eq_some_iff.1 h
  obtain ⟨patterns, hpatterns, h⟩ := Option.bind_eq_some_iff.1 h
  obtain ⟨repository, hrepository, h⟩ := Option.bind_eq_some_iff.1 h
  obtain ⟨firstLineMatch, -, h⟩ := Option.bind_eq_some_iff.1 h
  obtain ⟨foldingStartMarker, -, h⟩ := Option.bind_eq_some_iff.1 h
  obtain ⟨foldingStopMarker, -, h⟩ := Option.bind_eq_some_iff.1 h
  obtain ⟨uuid, -, h⟩ := Option.bind_eq_some_iff.1 h
  cases h
  have hentries : Entries.Increasing repository ∧ ∀ e ∈ repository, e.2.Keyed := by
    rcases eq_or_exists_of_defaulting hrepository with rfl | ⟨j, hj⟩
    · exact ⟨List.Pairwise.nil, nofun⟩
    · obtain ⟨hincreasing, hread⟩ := increasing_of_entries? hj
      refine ⟨hincreasing, fun e he => ?_⟩
      obtain ⟨j, hj⟩ := hread e he
      exact RuleDefinition.keyed_of_ofJson? hj
  refine ⟨fun rule hrule => ?_, hentries.1, hentries.2⟩
  rcases eq_or_exists_of_defaulting hpatterns with rfl | ⟨j, hj⟩
  · cases hrule
  · obtain ⟨j, hj⟩ := exists_of_list? hj rule hrule
    exact RuleDefinition.keyed_of_ofJson? hj

/-! ## Repositories that are loaded -/

variable [Engine]

/-- The repositories of all rules are in the order of their keys. -/
def RepositoriesInOrder (rules : Array Rule) : Prop :=
  ∀ rule ∈ rules, Entries.Increasing rule.repository

namespace Loading

theorem keeps_reserve (location : String) :
    Keeps RepositoriesInOrder (reserve location) fun _ => RepositoriesInOrder := by
  intro a ha rule hrule
  rcases Array.mem_push.1 hrule with hrule | rfl
  · exact ha rule hrule
  · exact List.Pairwise.nil

/-- A rule whose repository is in order can be filled in. -/
theorem keeps_fillOrdered {filled : Rule} (h : Entries.Increasing filled.repository) :
    Keeps RepositoriesInOrder (fill filled) fun _ => RepositoriesInOrder := by
  intro a ha rule hrule
  rcases Array.mem_or_eq_of_mem_setIfInBounds hrule with hrule | rfl
  · exact ha rule hrule
  · exact h

/-- What is known beside the property of the rules is there for what follows. -/
theorem keeps_of_known {α : Type} {p : Prop} {P : Array Rule → Prop} {m : Loading α}
    {Q : α → Array Rule → Prop} (h : p → Keeps P m Q) : Keeps (fun rules => p ∧ P rules) m Q :=
  fun a ha => h ha.1 a ha.2

/-- The captures for one end of a region, or else those for both. -/
theorem keeps_oneOrOther {c : Prop} [Decidable c] {α : Type} {P : Array Rule → Prop}
    {m m' : Loading α} {Q : α → Array Rule → Prop} (h : Keeps P m Q) (h' : Keeps P m' Q) :
    Keeps P (if c then m else m') Q := by
  split
  · exact h
  · exact h'

end Loading

open Loading

mutual

/-- Loading a rule keeps the repositories in order, if the maps of its definition are. -/
theorem loadRule_inOrder : ∀ (definition : RuleDefinition), definition.Keyed →
    ∀ location : String, Keeps RepositoriesInOrder (loadRule definition location)
      fun _ => RepositoriesInOrder
  | ⟨keys, captures, beginCaptures, endCaptures, whileCaptures, patterns, repository⟩,
      .intro hpatterns hincreasing hkeyed, location => by
    have hcaptures : ∀ map ∈ captures, ∀ e ∈ map, e.2.Keyed := fun map h =>
      hkeyed map (by simp [RuleDefinition.maps, Option.mem_def.1 h])
    have hbegin : ∀ map ∈ beginCaptures, ∀ e ∈ map, e.2.Keyed := fun map h =>
      hkeyed map (by simp [RuleDefinition.maps, Option.mem_def.1 h])
    have hend : ∀ map ∈ endCaptures, ∀ e ∈ map, e.2.Keyed := fun map h =>
      hkeyed map (by simp [RuleDefinition.maps, Option.mem_def.1 h])
    have hwhile : ∀ map ∈ whileCaptures, ∀ e ∈ map, e.2.Keyed := fun map h =>
      hkeyed map (by simp [RuleDefinition.maps, Option.mem_def.1 h])
    have hrepository : ∀ map ∈ repository, Entries.Increasing map ∧ ∀ e ∈ map, e.2.Keyed := by
      intro map h
      have hmem : map ∈ RuleDefinition.maps
          ⟨keys, captures, beginCaptures, endCaptures, whileCaptures, patterns, repository⟩ := by
        simp [RuleDefinition.maps, Option.mem_def.1 h]
      exact ⟨hincreasing map hmem, hkeyed map hmem⟩
    rw [loadRule]
    split
    · exact fun a ha => ha
    · refine (keeps_reserve location).bind fun id => ?_
      refine (keeps_scopeName keys.name location).bind fun name => ?_
      refine (loadEntries_inOrder repository hrepository location).bind fun entries => ?_
      refine keeps_of_known fun hentries => ?_
      refine Keeps.bind (Q := fun _ => RepositoriesInOrder) ?_ ?_
      · split
        · exact fun a ha => ha
        · exact (loadPatternList_inOrder patterns hpatterns location).bind fun rules =>
            keeps_pure fun _ h => h
        · refine (keeps_pattern keys.matchText location).bind fun pattern => ?_
          refine (loadCaptureMap_inOrder captures hcaptures _).bind fun rules => ?_
          exact keeps_pure fun _ h => h
        · refine (keeps_pattern keys.beginText location).bind fun opening => ?_
          refine (keeps_endPattern keys.endText location).bind fun closing => ?_
          refine (keeps_oneOrOther (loadCaptureMap_inOrder beginCaptures hbegin _)
            (loadCaptureMap_inOrder captures hcaptures _)).bind fun openingCaptures => ?_
          refine (keeps_oneOrOther (loadCaptureMap_inOrder endCaptures hend _)
            (loadCaptureMap_inOrder captures hcaptures _)).bind fun closingCaptures => ?_
          refine (keeps_scopeName keys.contentName location).bind fun contentName => ?_
          exact (loadPatternList_inOrder patterns hpatterns location).bind fun rules =>
            keeps_pure fun _ h => h
        · refine (keeps_pattern keys.beginText location).bind fun opening => ?_
          refine (keeps_endPattern keys.whileText location).bind fun condition => ?_
          refine (keeps_oneOrOther (loadCaptureMap_inOrder beginCaptures hbegin _)
            (loadCaptureMap_inOrder captures hcaptures _)).bind fun openingCaptures => ?_
          refine (keeps_oneOrOther (loadCaptureMap_inOrder whileCaptures hwhile _)
            (loadCaptureMap_inOrder captures hcaptures _)).bind fun conditionCaptures => ?_
          refine (keeps_scopeName keys.contentName location).bind fun contentName => ?_
          exact (loadPatternList_inOrder patterns hpatterns location).bind fun rules =>
            keeps_pure fun _ h => h
      · rintro ⟨kind, usable⟩
        exact (keeps_fillOrdered hentries).bind fun _ => keeps_pure fun _ h => h

theorem loadCaptureRule_inOrder : ∀ (definition : RuleDefinition), definition.Keyed →
    ∀ location : String, Keeps RepositoriesInOrder (loadCaptureRule definition location)
      fun _ => RepositoriesInOrder
  | ⟨keys, captures, beginCaptures, endCaptures, whileCaptures, patterns, repository⟩,
      .intro hpatterns hincreasing hkeyed, location => by
    have hrepository : ∀ map ∈ repository, Entries.Increasing map ∧ ∀ e ∈ map, e.2.Keyed := by
      intro map h
      have hmem : map ∈ RuleDefinition.maps
          ⟨keys, captures, beginCaptures, endCaptures, whileCaptures, patterns, repository⟩ := by
        simp [RuleDefinition.maps, Option.mem_def.1 h]
      exact ⟨hincreasing map hmem, hkeyed map hmem⟩
    rw [loadCaptureRule]
    refine (keeps_reserve location).bind fun id => ?_
    refine (keeps_scopeName keys.name location).bind fun name => ?_
    refine (keeps_scopeName keys.contentName location).bind fun contentName => ?_
    refine (loadPatternList_inOrder patterns hpatterns location).bind fun rules => ?_
    refine (loadEntries_inOrder repository hrepository location).bind fun entries => ?_
    refine keeps_of_known fun hentries => ?_
    exact (keeps_fillOrdered hentries).bind fun _ => keeps_pure fun _ h => h

theorem loadPatternList_inOrder : ∀ (definitions : Option (List RuleDefinition)),
    (∀ rules ∈ definitions, ∀ rule ∈ rules, rule.Keyed) → ∀ location : String,
    Keeps RepositoriesInOrder (loadPatternList definitions location) fun _ => RepositoriesInOrder
  | none, _, _ => fun _ ha => ha
  | some rules, h, _ => loadPatterns_inOrder rules (h rules rfl) _ 0

/-- A repository is loaded in the order of its keys. -/
theorem loadEntries_inOrder : ∀ (definitions : Option (List (String × RuleDefinition))),
    (∀ entries ∈ definitions, Entries.Increasing entries ∧ ∀ e ∈ entries, e.2.Keyed) →
    ∀ location : String, Keeps RepositoriesInOrder (loadEntries definitions location)
      fun entries rules => Entries.Increasing entries ∧ RepositoriesInOrder rules
  | none, _, _ => fun _ ha => ⟨List.Pairwise.nil, ha⟩
  | some entries, h, location => by
    intro a ha
    obtain ⟨hincreasing, hkeyed⟩ := h entries rfl
    obtain ⟨hkeys, hrules⟩ := loadRepository_inOrder entries hkeyed (location ++ ".") a ha
    refine ⟨?_, hrules⟩
    exact List.pairwise_map.1 ((List.pairwise_map.2 hincreasing).sublist hkeys)

theorem loadCaptureMap_inOrder : ∀ (definitions : Option (List (String × RuleDefinition))),
    (∀ entries ∈ definitions, ∀ e ∈ entries, e.2.Keyed) → ∀ location : String,
    Keeps RepositoriesInOrder (loadCaptureMap definitions location) fun _ => RepositoriesInOrder
  | none, _, _ => fun _ ha => ha
  | some entries, h, location => loadCaptures_inOrder entries (h entries rfl) location []

theorem loadPatterns_inOrder : ∀ (definitions : List RuleDefinition),
    (∀ rule ∈ definitions, rule.Keyed) → ∀ (location : String) (number : Nat),
    Keeps RepositoriesInOrder (loadPatterns definitions location number)
      fun _ => RepositoriesInOrder
  | [], _, _, _ => fun _ ha => ha
  | rule :: rest, h, location, number => by
    obtain ⟨hrule, hrest⟩ := List.forall_mem_cons.1 h
    rw [loadPatterns]
    refine (loadRule_inOrder rule hrule _).bind fun id => ?_
    refine (loadPatterns_inOrder rest hrest _ _).bind fun ids => ?_
    exact keeps_pure fun _ h => h

/-- The keys of what is loaded of a repository are some of its keys, in their order. -/
theorem loadRepository_inOrder : ∀ (definitions : List (String × RuleDefinition)),
    (∀ e ∈ definitions, e.2.Keyed) → ∀ location : String,
    Keeps RepositoriesInOrder (loadRepository definitions location) fun entries rules =>
      List.Sublist (entries.map Prod.fst) (definitions.map Prod.fst) ∧ RepositoriesInOrder rules
  | [], _, _ => fun _ ha => ⟨List.Sublist.refl _, ha⟩
  | (key, rule) :: rest, h, location => by
    obtain ⟨hrule, hrest⟩ := List.forall_mem_cons.1 h
    rw [loadRepository]
    refine (loadRule_inOrder rule hrule _).bind fun id => ?_
    refine (loadRepository_inOrder rest hrest _).bind fun ids => ?_
    split
    · exact keeps_pure fun _ h => ⟨h.1.cons_cons key, h.2⟩
    · exact keeps_pure fun _ h => ⟨h.1.cons key, h.2⟩

/-- Loading a capture map keeps the repositories in order as well. -/
theorem loadCaptures_inOrder : ∀ (definitions : List (String × RuleDefinition)),
    (∀ e ∈ definitions, e.2.Keyed) → ∀ (location : String) (rules : CaptureRules),
    Keeps RepositoriesInOrder (loadCaptures definitions location rules)
      fun _ => RepositoriesInOrder
  | [], _, _, _ => fun _ ha => ha
  | (key, rule) :: rest, h, location, rules => by
    obtain ⟨hrule, hrest⟩ := List.forall_mem_cons.1 h
    rw [loadCaptures]
    split
    · exact (keeps_note _ _).bind fun _ => loadCaptures_inOrder rest hrest location rules
    · refine (loadCaptureRule_inOrder rule hrule _).bind fun id => ?_
      exact loadCaptures_inOrder rest hrest location _

end

/-- Loading a grammar keeps the repositories in the order of their keys. -/
theorem Grammar.loadRoot_inOrder {d : GrammarDefinition} (hd : d.Keyed) (scope : Scope) :
    Keeps RepositoriesInOrder (loadRoot d scope) fun _ => RepositoriesInOrder := by
  unfold loadRoot
  refine (keeps_reserve "").bind fun id => ?_
  refine (loadPatterns_inOrder d.patterns hd.patterns "" 0).bind fun rules => ?_
  refine (loadRepository_inOrder d.repository hd.repository "").bind fun entries => ?_
  refine keeps_of_known fun hkeys => ?_
  exact keeps_fillOrdered (List.pairwise_map.1 ((List.pairwise_map.2 hd.increasing).sublist hkeys))

/-- In a grammar that loads, the repositories of the rules are in the order of their keys. -/
theorem Grammar.repository_increasing {d : GrammarDefinition} {g : Grammar}
    (h : ofDefinition d = .ok g) (hd : d.Keyed) {rule : Rule} (hrule : rule ∈ g.rules) :
    Entries.Increasing rule.repository := by
  obtain ⟨scope, -, rfl⟩ := exists_scope_of_ofDefinition h
  have hempty : RepositoriesInOrder Arena.empty.rules := fun _ h => absurd h (Array.not_mem_empty _)
  exact loadRoot_inOrder hd scope Arena.empty hempty rule hrule

end Highlight
