import Highlight.Pattern.Literal
import Highlight.Proofs.Links
import Highlight.Proofs.LoadedRules
import Highlight.Proofs.Owners

/-!
# What becomes of the entries of capture maps

An entry of a capture map whose key names no group is reported. Every other entry is loaded, with all
that is in it. But keys are texts and groups are numbers: when a later key of the map names the same
group, the later rule takes the place of the earlier one, and nothing is said about that. The earlier
rule keeps its number and all the rules in it keep theirs, but they are not met on the walk any more, so
what they include is not looked for.

- `GrammarDefinition.edges`: all rules that are loaded right within others.
- `GrammarDefinition.NamesApart`: no capture map names a group twice.
- `Grammar.mem_ruleOrder_of_edge`: a rule is met on the walk if the one around it is met and holds its
  number.
- `Grammar.all_listed_iff`: when all rules of a grammar are met.
- `Grammar.capture_entries_accounted`: the main statement.
-/

namespace Highlight

namespace GrammarDefinition

/-- All rules that are loaded right within others when a definition is loaded. -/
def edges (d : GrammarDefinition) : List Edge := edgesOf [d.whole] 0

variable {d : GrammarDefinition} {e : Edge}

theorem mem_edges : e ∈ d.edges ↔ ∃ l, d.loadOrder[e.owner]? = some l ∧
    (e.load, e.number) ∈ numbered l.inner (e.owner + 1) := by
  unfold edges
  rw [mem_edgesOf]
  constructor
  · rintro ⟨k, l, hl, howner, hnumber⟩
    rw [Nat.zero_add] at howner hnumber
    rw [howner]
    exact ⟨l, hl, hnumber⟩
  · rintro ⟨l, hl, hnumber⟩
    refine ⟨e.owner, l, hl, (Nat.zero_add _).symm, ?_⟩
    rw [Nat.zero_add]
    exact hnumber

/-- The numbers of the first rule and of all rules within others are the numbers of all rules. -/
theorem perm_edges (d : GrammarDefinition) :
    (rootRule :: d.edges.map Edge.number).Perm (List.range' 0 d.loadOrder.length) :=
  perm_edgesOf [d.whole] 0

theorem nodup_edges (d : GrammarDefinition) : (rootRule :: d.edges.map Edge.number).Nodup :=
  d.perm_edges.nodup_iff.2 List.nodup_range'

/-- **Each number is taken in one place.** -/
theorem edge_unique {e' : Edge} (h : e ∈ d.edges) (h' : e' ∈ d.edges) (hnumber : e.number = e'.number) :
    e = e' :=
  List.inj_on_of_nodup_map (List.nodup_cons.1 d.nodup_edges).2 h h' hnumber

theorem number_ne_root (h : e ∈ d.edges) : e.number ≠ rootRule := fun heq =>
  (List.nodup_cons.1 d.nodup_edges).1 (heq ▸ List.mem_map_of_mem h)

/-- Every rule but the first stands right within another one. -/
theorem exists_edge {m : RuleId} (hlt : m < d.loadOrder.length) (hroot : m ≠ rootRule) :
    ∃ e ∈ d.edges, e.number = m := by
  have hmem : m ∈ rootRule :: d.edges.map Edge.number :=
    d.perm_edges.mem_iff.2 (List.mem_range'_1.2 ⟨Nat.zero_le m, by rwa [Nat.zero_add]⟩)
  rcases List.mem_cons.1 hmem with heq | hmem
  · exact absurd heq hroot
  · exact List.mem_map.1 hmem

/-- A rule within another has a greater number, at which it stands. -/
theorem position_of_edge (h : e ∈ d.edges) :
    e.owner < e.number ∧ d.loadOrder[e.number]? = some e.load.toLoad := by
  obtain ⟨l, hl, hnumber⟩ := mem_edges.1 h
  obtain ⟨k, hk, hload⟩ := getElem?_of_numbered hnumber
  rw [hk]
  exact ⟨Nat.lt_of_lt_of_le (Nat.lt_succ_self _) (Nat.le_add_right _ k),
    getElem?_orderOf_inner hl hload⟩

end GrammarDefinition

/-! ## Which numbers are held -/

theorem mem_of_numbered {loads : List InnerLoad} {n : Nat} {i : InnerLoad} {m : RuleId}
    (h : (i, m) ∈ numbered loads n) : i ∈ loads := by
  induction loads generalizing n with
  | nil => cases h
  | cons first rest ih =>
    rcases List.mem_append.1 h with h | h
    · split at h
      · cases List.mem_singleton.1 h
        exact List.mem_cons_self
      · cases h
    · exact List.mem_cons_of_mem _ (ih h)

theorem exists_numbered {loads : List InnerLoad} {i : InnerLoad} (h : i ∈ loads)
    (hkept : i.isKept = true) (n : Nat) : ∃ m, (i, m) ∈ numbered loads n := by
  induction loads generalizing n with
  | nil => cases h
  | cons first rest ih =>
    rcases List.mem_cons.1 h with rfl | h
    · exact ⟨n, List.mem_append_left _ (by rw [if_pos hkept]; exact List.mem_cons_self)⟩
    · obtain ⟨m, hm⟩ := ih h (n + first.order.length)
      exact ⟨m, List.mem_append_right _ hm⟩

theorem held_of_mem_patternLoads {p : Place} {n : Nat} {rules : List RuleDefinition} {i : InnerLoad}
    (h : i ∈ patternLoads p n rules) : i.held = true := by
  induction rules generalizing n with
  | nil => cases h
  | cons rule rest ih =>
    rcases List.mem_cons.1 h with rfl | h
    · rfl
    · exact ih h

theorem held_of_mem_entryLoads {p : Place} {entries : List (String × RuleDefinition)} {i : InnerLoad}
    (h : i ∈ entryLoads p entries) : i.held = true := by
  obtain ⟨e, -, rfl⟩ := List.mem_map.1 h
  rfl

theorem isKept_of_mem_captureLoads {p : Place} {map : CaptureMap}
    {entries : List (String × RuleDefinition)} {i : InnerLoad} (h : i ∈ captureLoads p map entries) :
    i.isKept = true := by
  induction entries with
  | nil => cases h
  | cons e rest ih =>
    rw [captureLoads] at h
    split at h
    · exact ih h
    · rcases List.mem_cons.1 h with rfl | h
      · rfl
      · exact ih h

/-- The groups that the keys of a capture map name, in the order of the keys. -/
def namedGroups (entries : List (String × RuleDefinition)) : List Nat :=
  entries.filterMap fun e => captureGroup? e.1

theorem namesGroup_iff {group : Nat} {entries : List (String × RuleDefinition)} :
    namesGroup group entries = true ↔ group ∈ namedGroups entries := by
  simp [namesGroup, namedGroups]

/-- All numbers of a capture map are held exactly if its keys name different groups. -/
theorem held_captureLoads_iff (p : Place) (map : CaptureMap) (entries : List (String × RuleDefinition)) :
    (∀ i ∈ captureLoads p map entries, i.held = true) ↔ (namedGroups entries).Nodup := by
  induction entries with
  | nil => simp [captureLoads, namedGroups]
  | cons e rest ih =>
    obtain ⟨key, rule⟩ := e
    cases hkey : captureGroup? key with
    | none =>
      have hgroups : namedGroups ((key, rule) :: rest) = namedGroups rest :=
        List.filterMap_cons_none hkey
      rw [captureLoads_of_none hkey, hgroups]
      exact ih
    | some group =>
      have hgroups : namedGroups ((key, rule) :: rest) = group :: namedGroups rest :=
        List.filterMap_cons_some hkey
      rw [captureLoads_of_some hkey, hgroups, List.nodup_cons, ← namesGroup_iff, List.forall_mem_cons, ih]
      simp

namespace GrammarDefinition

/-- No capture map that is loaded of a definition names a group with two of its keys. -/
def NamesApart (d : GrammarDefinition) : Prop :=
  ∀ l ∈ d.loadOrder, ∀ map, .captures map ∈ l.parts →
    (namedGroups (l.definition.captureEntries map)).Nodup

theorem namesApart_iff_held {d : GrammarDefinition} :
    d.NamesApart ↔ ∀ e ∈ d.edges, e.load.held = true := by
  constructor
  · intro hnames e he
    obtain ⟨l, hl, hnumber⟩ := mem_edges.1 he
    obtain ⟨part, hpart, hload⟩ := List.mem_flatMap.1 (mem_of_numbered hnumber)
    cases part with
    | patterns => exact held_of_mem_patternLoads hload
    | repository => exact held_of_mem_entryLoads hload
    | captures map =>
      exact (held_captureLoads_iff _ _ _).2 (hnames l (List.mem_of_getElem? hl) map hpart) _ hload
  · intro hheld l hl map hpart
    obtain ⟨n, hn⟩ := List.getElem?_of_mem hl
    refine (held_captureLoads_iff l.place map _).1 fun i hload => ?_
    have hinner : i ∈ l.inner := List.mem_flatMap.2 ⟨_, hpart, hload⟩
    obtain ⟨m, hnumber⟩ := exists_numbered hinner (isKept_of_mem_captureLoads hload) (n + 1)
    exact hheld ⟨n, i, m⟩ (mem_edges.2 ⟨l, hn, hnumber⟩)

end GrammarDefinition

section

variable [Engine]

namespace Grammar

variable {d : GrammarDefinition} {g : Grammar}

/-! ## Which rules are met on the walk -/

section

variable (hd : ofDefinition d = .ok g)
include hd

/-- What a rule owns is what it holds of the rules within it. -/
theorem exists_edge_of_owned {owner : RuleId} {rule : Rule} (hrule : g.rule? owner = some rule)
    {m : RuleId} (hm : m ∈ rule.owned) :
    ∃ e ∈ d.edges, e.owner = owner ∧ e.number = m ∧ e.load.held = true := by
  obtain ⟨hsize, hmakes⟩ := makes_of_loadOrder hd
  obtain ⟨hlt, -⟩ := Array.getElem?_eq_some_iff.1 hrule
  rw [hsize] at hlt
  have hl := List.getElem?_eq_getElem hlt
  obtain ⟨rule', hrule', hmake⟩ := hmakes owner _ hl
  rw [hrule] at hrule'
  cases hrule'
  obtain ⟨i, hnumber, hheld⟩ := mem_heldNumbers.1 ((hmake.owned m).1 hm)
  exact ⟨⟨owner, i, m⟩, GrammarDefinition.mem_edges.2 ⟨_, hl, hnumber⟩, rfl, rfl, hheld⟩

/-- A rule holds the numbers that it is to hold. -/
theorem exists_owned_of_edge {e : Edge} (he : e ∈ d.edges) (hheld : e.load.held = true) :
    ∃ rule, g.rule? e.owner = some rule ∧ e.number ∈ rule.owned := by
  obtain ⟨l, hl, hnumber⟩ := GrammarDefinition.mem_edges.1 he
  obtain ⟨rule, hrule, hmake⟩ := (makes_of_loadOrder hd).2 e.owner l hl
  exact ⟨rule, hrule, (hmake.owned _).2 (mem_heldNumbers.2 ⟨e.load, hnumber, hheld⟩)⟩

/-- **A rule is met on the walk if the rule around it is met and holds its number.** -/
theorem mem_ruleOrder_of_edge {e : Edge} (he : e ∈ d.edges) :
    e.number ∈ g.ruleOrder ↔ e.owner ∈ g.ruleOrder ∧ e.load.held = true := by
  have hforest := forest_of_ofDefinition hd
  constructor
  · intro hmem
    have hbelow := (mem_ruleOrder_iff hforest).1 hmem
    generalize hnumber : e.number = m at hbelow
    cases hbelow with
    | refl => exact absurd hnumber (GrammarDefinition.number_ne_root he)
    | @step owner rule _ howner hrule hm =>
      rw [Array.getElem?_toList] at hrule
      obtain ⟨e', he', rfl, hnumber', hheld⟩ := exists_edge_of_owned hd hrule hm
      -- the number is taken in one place, so this is where it is held
      obtain rfl := GrammarDefinition.edge_unique he he' (hnumber.trans hnumber'.symm)
      exact ⟨(mem_ruleOrder_iff hforest).2 howner, hheld⟩
  · rintro ⟨howner, hheld⟩
    obtain ⟨rule, hrule, howned⟩ := exists_owned_of_edge hd he hheld
    exact owned_mem_ruleOrder hforest howner hrule howned

/-- All rules are met on the walk exactly if all numbers are held. -/
theorem all_listed_iff_held :
    (∀ n < g.rules.size, n ∈ g.ruleOrder) ↔ ∀ e ∈ d.edges, e.load.held = true := by
  obtain ⟨hsize, -⟩ := makes_of_loadOrder hd
  constructor
  · intro hall e he
    obtain ⟨-, hload⟩ := GrammarDefinition.position_of_edge he
    obtain ⟨hlt, -⟩ := List.getElem?_eq_some_iff.1 hload
    exact ((mem_ruleOrder_of_edge hd he).1 (hall e.number (by omega))).2
  · intro hheld n
    induction n using Nat.strong_induction_on with
    | _ n ih =>
      intro hlt
      by_cases hroot : n = rootRule
      · rw [hroot]
        exact root_mem_ruleOrder (forest_of_ofDefinition hd)
      · obtain ⟨e, he, rfl⟩ := GrammarDefinition.exists_edge (hsize ▸ hlt) hroot
        obtain ⟨hless, -⟩ := GrammarDefinition.position_of_edge he
        exact (mem_ruleOrder_of_edge hd he).2 ⟨ih e.owner hless (Nat.lt_trans hless hlt), hheld e he⟩

/-- **All rules of a grammar are met on the walk exactly if no capture map names a group twice.** -/
theorem all_listed_iff : (∀ n < g.rules.size, n ∈ g.ruleOrder) ↔ d.NamesApart :=
  (all_listed_iff_held hd).trans GrammarDefinition.namesApart_iff_held.symm

end

/-! ## Includes -/

/-- An include that is met on the walk is bound or reported. -/
theorem bound_or_reported (hforest : Forest 0 g.rules.toList [rootRule]) (path : String)
    (find : String → Option Grammar) {n : RuleId} {rule : Rule} {reference : Reference}
    (hrule : g.rule? n = some rule) (hkind : rule.kind = .link reference) (hlisted : n ∈ g.ruleOrder) :
    ((g.link path find).target? n).isSome ∨
      ⟨rule.location, .unresolvedReference reference.text⟩ ∈ (g.link path find).diagnostics := by
  have hincludes : g.Includes n reference := (includes_iff hforest).2 ⟨hlisted, rule, hrule, hkind⟩
  rw [target?_link hforest hincludes]
  cases hbind : g.bind? path find n reference with
  | some target => exact .inl rfl
  | none =>
    refine .inr (List.mem_append_right _ (List.mem_filterMap.2 ⟨n, hlisted, ?_⟩))
    rw [unresolved?, hrule]
    simp only [hkind, hbind]

/-- Linking reports nothing if no include is met on the walk. -/
theorem diagnostics_link_of_no_includes (path : String) (find : String → Option Grammar)
    (h : ∀ n ∈ g.ruleOrder, g.include? n = none) : (g.link path find).diagnostics = g.diagnostics := by
  have hunresolved : (g.link path find).unresolved = [] := by
    refine List.filterMap_eq_nil_iff.2 fun n hn => Option.eq_none_iff_forall_ne_some.2 fun d hd => ?_
    obtain ⟨rule, reference, hrule, hkind, -, -⟩ := unresolved?_eq_some hd
    have hinclude := h n hn
    simp only [include?, hrule, hkind, reduceCtorEq] at hinclude
  rw [LinkedGrammar.diagnostics, hunresolved, List.append_nil]
  rfl

/-- What is not met on the walk is not bound. -/
theorem target?_of_unlisted (hforest : Forest 0 g.rules.toList [rootRule]) (path : String)
    (find : String → Option Grammar) {n : RuleId} (hlisted : n ∉ g.ruleOrder) :
    (g.link path find).target? n = none := by
  cases htarget : (g.link path find).target? n with
  | none => rfl
  | some target =>
    obtain ⟨reference, hincludes⟩ := includes_of_target? hforest htarget
    exact absurd ((includes_iff hforest).1 hincludes).1 hlisted

/-! ## The main statement -/

/-- **What becomes of the entries of capture maps.** The rules of a grammar are made of its definition in
the order in which they are loaded. Each entry of a capture map is reported, or stands at its group, or
has given way to a later one for the same group. A rule within another one is met on the walk if the outer
one is met and holds its number. So all rules are met exactly if no capture map names a group twice. The
includes that are met are bound or reported, the others are never bound. -/
theorem capture_entries_accounted (d : GrammarDefinition) (g : Grammar) (hd : ofDefinition d = .ok g) :
    (g.rules.size = d.loadOrder.length ∧ ∀ n l, d.loadOrder[n]? = some l →
      ∃ rule, g.rule? n = some rule ∧ l.Makes g.diagnostics n rule ∧
        ∀ i m, (i, m) ∈ numbered l.inner (n + 1) → d.loadOrder[m]? = some i.toLoad ∧
          (m ∈ g.ruleOrder ↔ n ∈ g.ruleOrder ∧ i.held = true)) ∧
    (∀ n, n ∈ g.ruleOrder ↔ Below g.rules.toList rootRule n) ∧
    ((∀ n < g.rules.size, n ∈ g.ruleOrder) ↔ d.NamesApart) ∧
    ∀ (path : String) (find : String → Option Grammar) (n : RuleId) (rule : Rule)
      (reference : Reference), g.rule? n = some rule → rule.kind = .link reference →
      (n ∈ g.ruleOrder → ((g.link path find).target? n).isSome ∨
        ⟨rule.location, .unresolvedReference reference.text⟩ ∈ (g.link path find).diagnostics) ∧
      (n ∉ g.ruleOrder → (g.link path find).target? n = none) := by
  have hforest := forest_of_ofDefinition hd
  obtain ⟨hsize, hmakes⟩ := makes_of_loadOrder hd
  refine ⟨⟨hsize, fun n l hl => ?_⟩, fun n => mem_ruleOrder_iff hforest, all_listed_iff hd, ?_⟩
  · obtain ⟨rule, hrule, hmake⟩ := hmakes n l hl
    refine ⟨rule, hrule, hmake, fun i m hnumber => ?_⟩
    have he : ⟨n, i, m⟩ ∈ d.edges := GrammarDefinition.mem_edges.2 ⟨l, hl, hnumber⟩
    exact ⟨(GrammarDefinition.position_of_edge he).2, mem_ruleOrder_of_edge hd he⟩
  · intro path find n rule reference hrule hkind
    exact ⟨bound_or_reported hforest path find hrule hkind, target?_of_unlisted hforest path find⟩

end Grammar

end

namespace Grammar

set_option maxRecDepth 100000 in
/-- A region with one capture map for both of its ends. Of three entries one is reported, one is met on the
walk, and one has given way to it, so the include in it is never bound. -/
theorem capture_entries_accounted_region :
    let gone : RuleDefinition := { keys := { includeText := some "#gone" } }
    let hidden : RuleDefinition := { patterns := some [gone] }
    let shown : RuleDefinition := { keys := { name := some "shown.x" } }
    let region : RuleDefinition :=
      { keys := { beginText := some "(a)", endText := some "(b)" },
        captures := some [("01", hidden), ("1", shown), ("x", shown)] }
    let d : GrammarDefinition := { scopeName := some "x", patterns := [region] }
    let g := ofScoped d ⟨[.name { chars := ['x'] }], by decide⟩
    ofDefinition d = .ok g ∧
      ⟨"patterns[0].captures", .invalidCaptureKey "x"⟩ ∈ g.diagnostics ∧
      (∃ m, d.loadOrder[m]? = some ⟨.group, [.pattern 0, .capture .shared "1"], shown⟩ ∧
        m ∈ g.ruleOrder) ∧
      (∃ m, d.loadOrder[m]? = some ⟨.group, [.pattern 0, .capture .shared "01"], hidden⟩ ∧
        m ∉ g.ruleOrder) ∧
      ¬ d.NamesApart ∧ ∀ path find, (g.link path find).target? 3 = none := by
  intro gone hidden shown region d g
  have hd : ofDefinition d = .ok g := rfl
  have horder : g.ruleOrder = [0, 1, 4, 7] := by decide +kernel +zetaReduce
  have hslots : (g.rule? 1).map (fun rule => rule.kind.slots) =
      some [(.opening, [none, some 4]), (.closing, [none, some 7])] := by decide +kernel +zetaReduce
  have hinclude : (g.include? 3).map Prod.snd = some (.entry "gone") := by decide +kernel +zetaReduce
  have hwhole : d.whole.inner = [⟨⟨.rule, [.pattern 0], region⟩, true⟩] := rfl
  have hplace : d.loadOrder[1]? = some ⟨.rule, [.pattern 0], region⟩ := by
    have hfirst : d.loadOrder[0]? = some d.whole.toLoad := by
      rw [GrammarDefinition.loadOrder, orderOf_cons, Load.order_of_kept rfl]
      rfl
    refine getElem?_orderOf_inner (j := 0) hfirst ?_
    rw [hwhole, orderOf_cons, Load.order_of_kept rfl]
    rfl
  obtain ⟨⟨hsize, hmakes⟩, -, hall, hincludes⟩ := capture_entries_accounted d g hd
  obtain ⟨rule, hrule, hmake, hinner⟩ := hmakes 1 _ hplace
  rw [hrule, Option.map_some, Option.some_inj] at hslots
  have hslot : (CaptureMap.opening, [none, some 4]) ∈ rule.kind.slots :=
    hslots ▸ List.mem_cons_self
  have hentries := hmake.entries .opening _ hslot
  refine ⟨hd, hentries [("01", hidden), ("1", shown)] "x" shown [] rfl, ?_, ?_, ?_, ?_⟩
  · have hkept := hentries [("01", hidden)] "1" shown [("x", shown)] rfl
    obtain ⟨i, m, hnumber, hload, hheld, -⟩ := hkept.loaded (show captureGroup? "1" = some 1 from rfl)
    obtain ⟨hposition, hlisted⟩ := hinner i m hnumber
    have hlast : namesGroup 1 [("x", shown)] = false := by decide +kernel
    rw [hlast] at hheld
    exact ⟨m, hload ▸ hposition, hlisted.2 ⟨by rw [horder]; decide, hheld⟩⟩
  · have hkept := hentries [] "01" hidden [("1", shown), ("x", shown)] rfl
    obtain ⟨i, m, hnumber, hload, hheld, -⟩ := hkept.loaded (show captureGroup? "01" = some 1 from rfl)
    obtain ⟨hposition, hlisted⟩ := hinner i m hnumber
    have hlater : namesGroup 1 [("1", shown), ("x", shown)] = true := by decide +kernel
    rw [hlater] at hheld
    exact ⟨m, hload ▸ hposition, fun hmem => Bool.false_ne_true (hheld.symm.trans (hlisted.1 hmem).2)⟩
  · intro hnames
    have hthree := hall.2 hnames 3 (by decide +kernel +zetaReduce)
    rw [horder] at hthree
    exact absurd hthree (by decide)
  · intro path find
    obtain ⟨⟨rule, reference⟩, hfound, -⟩ := Option.map_eq_some_iff.1 hinclude
    obtain ⟨hrule, hkind⟩ := include?_eq_some hfound
    exact (hincludes path find 3 rule reference hrule hkind).2 (by rw [horder]; decide)

set_option maxRecDepth 100000 in
/-- **A capture entry can be lost silently.** Two keys name the same group, so the rule of the first one is
nowhere to be found, and nothing is reported about it or about the include in it, which names nothing. -/
theorem capture_entry_overwritten :
    let gone : RuleDefinition := { keys := { includeText := some "#gone" } }
    let hidden : RuleDefinition := { patterns := some [gone] }
    let shown : RuleDefinition := { keys := { name := some "shown.x" } }
    let single : RuleDefinition :=
      { keys := { matchText := some "(a)" }, captures := some [("01", hidden), ("1", shown)] }
    let d : GrammarDefinition := { scopeName := some "x", patterns := [single] }
    let g := ofScoped d ⟨[.name { chars := ['x'] }], by decide⟩
    ofDefinition d = .ok g ∧
      (g.rule? 1).map (fun rule => rule.kind.slots) = some [(.shared, [none, some 4])] ∧
      (g.rule? 2).map Rule.location = some "patterns[0].captures.01" ∧ g.ruleOrder = [0, 1, 4] ∧
      (g.include? 3).map Prod.snd = some (.entry "gone") ∧
      ∀ path find, (g.link path find).target? 3 = none ∧ (g.link path find).diagnostics = [] := by
  intro gone hidden shown single d g
  have hd : ofDefinition d = .ok g := rfl
  have horder : g.ruleOrder = [0, 1, 4] := by decide +kernel +zetaReduce
  have hdiagnostics : g.diagnostics = [] := by decide +kernel +zetaReduce
  have hincludes : ∀ id ∈ [0, 1, 4], g.include? id = none := by decide +kernel +zetaReduce
  refine ⟨hd, by decide +kernel +zetaReduce, by decide +kernel +zetaReduce, horder,
    by decide +kernel +zetaReduce, fun path find => ⟨?_, ?_⟩⟩
  · exact target?_of_unlisted (forest_of_ofDefinition hd) path find (by rw [horder]; decide)
  · rw [diagnostics_link_of_no_includes path find (by rwa [horder]), hdiagnostics]

end Grammar

end Highlight
