import Highlight.Proofs.KeyedMaps

/-!
# Places in a definition

A rule stands at a place in the definition of its grammar: one gets there by going from the grammar to
one of its patterns or repository entries, from there to a rule in that, and so on. The text of a place
is what the loader notes as the location of a rule, and of a diagnostic.

- `Step`, `Place`, `Place.text`: the places and their texts.
- `RuleDefinition.at?`, `RuleDefinition.delete`: what stands at a place, and the definition without it.
- `Place.moved`: where things stand when a pattern in front of them is gone.
- `RuleDefinition.loadedParts`, `RuleDefinition.visits`: how often the loader comes to a place.
- `Place.text_concat`: the text of a place from that of the place around it.
- `Place.moved_append`: places move within the list that the pattern is taken out of.
- `RuleDefinition.HasAt`: what stands where in a definition all of whose maps are in order.
-/

namespace Highlight

/-- The capture maps that a rule can have. -/
inductive CaptureMap where
  | shared
  | opening
  | closing
  | condition
deriving DecidableEq

/-- The key of a capture map in a definition. -/
def CaptureMap.text : CaptureMap → String
  | .shared => "captures"
  | .opening => "beginCaptures"
  | .closing => "endCaptures"
  | .condition => "whileCaptures"

/-- The parts of a rule that have rules in them. -/
inductive RulePart where
  | patterns
  | repository
  | captures (map : CaptureMap)
deriving DecidableEq

/-- The way from a definition to a rule that stands right in it. -/
inductive Step where
  | pattern (i : Nat)
  | entry (key : String)
  | capture (map : CaptureMap) (key : String)
deriving DecidableEq

namespace Step

/-- The part of the rule that is stepped into. -/
def part : Step → RulePart
  | .pattern _ => .patterns
  | .entry _ => .repository
  | .capture map _ => .captures map

/-- The text of a step. -/
def text : Step → String
  | .pattern i => "patterns[" ++ toString i ++ "]"
  | .entry key => "repository." ++ key
  | .capture map key => map.text ++ "." ++ key

/-- The step to the same rule when the one that another step led to is gone. -/
def movedUp : Step → Step → Step
  | .pattern j, .pattern i => .pattern (if i < j then j - 1 else j)
  | step, _ => step

end Step

/-- The way from a definition to a rule that stands in it. -/
abbrev Place := List Step

namespace Place

/-- The text of a place. -/
def text (place : Place) : String := ".".intercalate (place.map Step.text)

/-- What stands in front of the last step in the text of a place, given the place before that step. -/
def below : Place → String
  | [] => ""
  | step :: rest => text (step :: rest) ++ "."

/-- Where something stands after the rule at `target` was deleted: a pattern that comes behind that rule
in its pattern list moves up by one, with all that is in it. -/
def moved : Place → Place → Place
  | [], place => place
  | _ :: _, [] => []
  | step :: target, other :: rest =>
    if step = other then other :: moved target rest
    else if target = [] then other.movedUp step :: rest
    else other :: rest

end Place

namespace RuleDefinition

/-- A capture map of a definition. -/
def captureMap (d : RuleDefinition) : CaptureMap → Option (Entries RuleDefinition)
  | .shared => d.captures
  | .opening => d.beginCaptures
  | .closing => d.endCaptures
  | .condition => d.whileCaptures

/-- The rule that a step leads to. -/
def inner? (d : RuleDefinition) : Step → Option RuleDefinition
  | .pattern i => d.patterns.bind fun rules => rules[i]?
  | .entry key => d.repository.bind (Entries.get? key)
  | .capture map key => (d.captureMap map).bind (Entries.get? key)

/-- The rule at a place. -/
def at? (d : RuleDefinition) : Place → Option RuleDefinition
  | [] => some d
  | step :: rest => (d.inner? step).bind fun inner => inner.at? rest

/-- A map with another rule for a key, or without one. -/
def editEntries (key : String) (value : Option RuleDefinition) (entries : Entries RuleDefinition) :
    Entries RuleDefinition :=
  match value with
  | some rule => entries.put key rule
  | none => entries.erase key

/-- A list with another rule at a position, or without one. -/
def editList (i : Nat) (value : Option RuleDefinition) (rules : List RuleDefinition) :
    List RuleDefinition :=
  match value with
  | some rule => rules.set i rule
  | none => rules.eraseIdx i

/-- The definition with another rule where a step leads to, or without one. -/
def edit (d : RuleDefinition) (value : Option RuleDefinition) : Step → RuleDefinition
  | .pattern i => { d with patterns := d.patterns.map (editList i value) }
  | .entry key => { d with repository := d.repository.map (editEntries key value) }
  | .capture .shared key => { d with captures := d.captures.map (editEntries key value) }
  | .capture .opening key => { d with beginCaptures := d.beginCaptures.map (editEntries key value) }
  | .capture .closing key => { d with endCaptures := d.endCaptures.map (editEntries key value) }
  | .capture .condition key => { d with whileCaptures := d.whileCaptures.map (editEntries key value) }

/-- The definition without the rule at a place. -/
def delete (d : RuleDefinition) : Place → RuleDefinition
  | [] => d
  | [step] => d.edit none step
  | step :: next :: rest =>
    match d.inner? step with
    | some inner => d.edit (some (inner.delete (next :: rest))) step
    | none => d

end RuleDefinition

/-- What a definition is loaded as: a rule of the kind that its keys call for, or a group, for which
nothing but the pattern list and the repository count. -/
inductive LoadedAs where
  | rule
  | group

namespace Step

/-- What a rule is loaded as if a step leads to it. -/
def loadedAs : Step → LoadedAs
  | .pattern _ | .entry _ => .rule
  | .capture _ _ => .group

/-- Whether what a step leads to is loaded with the part that it stands in. -/
def isLoaded : Step → Bool
  | .pattern _ | .entry _ => true
  | .capture _ key => (captureGroup? key).isSome

end Step

namespace RuleDefinition

/-- The capture map that counts for one end of a region, or for a pattern: the one for that end, or else
the one for both. -/
def mapFor (d : RuleDefinition) (map : CaptureMap) : CaptureMap :=
  if (d.captureMap map).isSome then map else .shared

theorem mapFor_shared (d : RuleDefinition) : d.mapFor .shared = .shared := ite_self _

/-- The parts of a definition that are loaded with a rule of some kind, in their order. -/
def partsFor (d : RuleDefinition) : Shape → List RulePart
  | .link _ => [.repository]
  | .group => [.repository, .patterns]
  | .single => [.repository, .captures .shared]
  | .region =>
    [.repository, .captures (d.mapFor .opening), .captures (d.mapFor .closing), .patterns]
  | .guarded =>
    [.repository, .captures (d.mapFor .opening), .captures (d.mapFor .condition), .patterns]

/-- The parts of a definition that are loaded with it, in their order. -/
def loadedParts (d : RuleDefinition) : LoadedAs → List RulePart
  | .group => [.patterns, .repository]
  | .rule =>
    match classify d.keys d.patterns.isSome with
    | .error _ => []
    | .ok shape => d.partsFor shape

/-- How often the loader comes to the rule at a place when it loads the definition once. -/
def visits (d : RuleDefinition) : LoadedAs → Place → Nat
  | _, [] => 1
  | loadedAs, step :: rest =>
    match d.inner? step with
    | none => 0
    | some inner =>
      (d.loadedParts loadedAs).count step.part
        * if step.isLoaded then inner.visits step.loadedAs rest else 0

end RuleDefinition

namespace GrammarDefinition

/-- A grammar's definition as that of a group. -/
def top (d : GrammarDefinition) : RuleDefinition :=
  { patterns := some d.patterns, repository := some d.repository }

/-- The rule at a place. -/
def at? (d : GrammarDefinition) (place : Place) : Option RuleDefinition := d.top.at? place

/-- The definition without the rule at a place. -/
def delete (d : GrammarDefinition) (place : Place) : GrammarDefinition :=
  { d with
    patterns := (d.top.delete place).patterns.getD []
    repository := (d.top.delete place).repository.getD [] }

/-- How often the loader comes to the rule at a place. -/
def visits (d : GrammarDefinition) (place : Place) : Nat := d.top.visits .group place

end GrammarDefinition

namespace Place

variable {p : Place}

/-- There is a dot between the text of a place and what comes behind it, except at the top. -/
theorem below_eq (h : p ≠ []) : p.below = p.text ++ "." := by
  cases p with
  | nil => exact absurd rfl h
  | cons step rest => rfl

/-- The text of a place ends with the text of its last step. -/
theorem text_concat (p : Place) (step : Step) : text (p ++ [step]) = p.below ++ step.text := by
  cases p with
  | nil => simp [text, below]
  | cons first rest =>
    rw [below, text, text, List.map_append, String.intercalate_append_of_ne_nil (by simp) (by simp)]
    simp

/-- Nothing moves outside of what the deleted rule stands in. -/
theorem moved_append (p target rest : Place) :
    moved (p ++ target) (p ++ rest) = p ++ moved target rest := by
  induction p with
  | nil => rfl
  | cons step p ih => rw [List.cons_append, List.cons_append, moved, if_pos rfl, ih, List.cons_append]

/-- Where a pattern behind the deleted one is. -/
theorem moved_later {i j : Nat} (h : i ≤ j) (rest : Place) :
    moved [.pattern i] (.pattern (j + 1) :: rest) = .pattern j :: rest := by
  have hne : Step.pattern i ≠ .pattern (j + 1) := fun heq => by
    cases heq
    omega
  rw [moved, if_neg hne, if_pos rfl, Step.movedUp, if_pos (Nat.lt_succ_of_le h)]
  rfl

/-- What stands beside the way to the deleted rule does not move, unless it comes behind that rule in a
pattern list. -/
theorem moved_beside {step other : Step} {target : Place}
    (h : target = [] → other.movedUp step = other) (hne : step ≠ other) (rest : Place) :
    moved (step :: target) (other :: rest) = other :: rest := by
  rw [moved, if_neg hne]
  split
  · rename_i htarget
    rw [h htarget]
  · rfl

end Place

/-- Steps into different parts of a rule do not move each other. -/
theorem Step.movedUp_eq {step other : Step} (h : step.part ≠ other.part) :
    other.movedUp step = other := by
  cases other with
  | pattern j =>
    cases step with
    | pattern i => exact absurd rfl h
    | entry key => rfl
    | capture map key => rfl
  | entry key => rfl
  | capture map key => rfl

namespace RuleDefinition

variable {d : RuleDefinition} {step : Step}

/-- The maps in a definition are in the order of their keys. -/
theorem Keyed.increasing (h : d.Keyed) {entries : Entries RuleDefinition}
    (hentries : d.repository = some entries ∨ ∃ map, d.captureMap map = some entries) :
    entries.Increasing ∧ ∀ e ∈ entries, e.2.Keyed := by
  obtain ⟨-, hincreasing, hkeyed⟩ := h
  have hmem : entries ∈ d.maps := by
    rcases hentries with h | ⟨map, h⟩
    · simp [maps, h]
    · cases map <;> simp only [captureMap] at h <;> simp [maps, h]
  exact ⟨hincreasing entries hmem, hkeyed entries hmem⟩

/-- What is in a definition with its maps in order has its maps in order. -/
theorem Keyed.inner {inner : RuleDefinition} (h : d.Keyed) (hinner : d.inner? step = some inner) :
    inner.Keyed := by
  cases step with
  | pattern i =>
    obtain ⟨rules, hrules, hrule⟩ := Option.bind_eq_some_iff.1 hinner
    obtain ⟨hpatterns, -, -⟩ := h
    exact hpatterns rules hrules inner (List.mem_of_getElem? hrule)
  | entry key =>
    obtain ⟨entries, hentries, hrule⟩ := Option.bind_eq_some_iff.1 hinner
    exact (h.increasing (.inl hentries)).2 _ (Entries.mem_of_get? hrule)
  | capture map key =>
    obtain ⟨entries, hentries, hrule⟩ := Option.bind_eq_some_iff.1 hinner
    exact (h.increasing (.inr ⟨map, hentries⟩)).2 _ (Entries.mem_of_get? hrule)

/-- The rule at a place is found from the rule at the place around it. -/
theorem at?_concat (d : RuleDefinition) (p : Place) (step : Step) :
    d.at? (p ++ [step]) = (d.at? p).bind fun inner => inner.inner? step := by
  induction p generalizing d with
  | nil => exact Option.bind_fun_some _
  | cons first p ih =>
    rw [List.cons_append, at?, at?, Option.bind_assoc]
    exact Option.bind_congr fun inner _ => ih inner

/-- In a map in the order of its keys, each entry is found under its key. -/
theorem bind_get? {map : Option (Entries RuleDefinition)} {e : String × RuleDefinition}
    (hincreasing : ∀ entries, map = some entries → entries.Increasing) (he : e ∈ map.getD []) :
    map.bind (Entries.get? e.1) = some e.2 := by
  cases map with
  | none => cases he
  | some entries => exact (hincreasing entries rfl).get?_of_mem he

/-- What stands at a place of a definition, with its maps in the order of their keys. -/
structure HasAt (top : RuleDefinition) (p : Place) (d : RuleDefinition) : Prop where
  at_eq : top.at? p = some d
  keyed : d.Keyed

/-- The rules of a list stand one behind the other in a pattern list, from a number on. -/
def ListedAt (top : RuleDefinition) (p : Place) (n : Nat) (rules : List RuleDefinition) : Prop :=
  ∀ i rule, rules[i]? = some rule → top.HasAt (p ++ [.pattern (n + i)]) rule

namespace ListedAt

variable {top rule : RuleDefinition} {p : Place} {n : Nat} {rest : List RuleDefinition}
  (h : top.ListedAt p n (rule :: rest))
include h

theorem head : top.HasAt (p ++ [.pattern n]) rule := h 0 rule rfl

theorem tail : top.ListedAt p (n + 1) rest := by
  intro i rule hrule
  rw [Nat.add_right_comm]
  exact h (i + 1) rule hrule

end ListedAt

namespace HasAt

variable {top : RuleDefinition} {p : Place} (h : top.HasAt p d)
include h

/-- One step further inside. -/
theorem inner {inner : RuleDefinition} (hinner : d.inner? step = some inner) :
    top.HasAt (p ++ [step]) inner := by
  refine ⟨?_, h.keyed.inner hinner⟩
  rw [at?_concat, h.at_eq]
  exact hinner

/-- The patterns of a rule stand in its pattern list from zero on. -/
theorem patterns : top.ListedAt p 0 (d.patterns.getD []) := by
  intro i rule hrule
  rw [Nat.zero_add]
  refine h.inner ?_
  unfold inner?
  cases hpatterns : d.patterns with
  | none => simp [hpatterns] at hrule
  | some rules => rwa [hpatterns] at hrule

theorem entry : ∀ e ∈ d.repository.getD [], top.HasAt (p ++ [.entry e.1]) e.2 := fun _ he =>
  h.inner (bind_get? (fun _ hentries => (h.keyed.increasing (.inl hentries)).1) he)

/-- The rules of a capture map stand under the keys of their groups. -/
theorem capture (map : CaptureMap) :
    ∀ e ∈ (d.captureMap map).getD [], top.HasAt (p ++ [.capture map e.1]) e.2 := fun _ he =>
  h.inner (bind_get? (fun _ hentries => (h.keyed.increasing (.inr ⟨map, hentries⟩)).1) he)

end HasAt

end RuleDefinition

end Highlight
