import Highlight.CommandLine
import Highlight.Pattern.Literal
import Highlight.Proofs.Links
import Highlight.Proofs.ScopeText

/-!
# What checking files reports

The files to check are all placed in one registry, each where its scope says, and then each is looked
for by its scope. A file whose scope a later file has too is therefore not found again: the later one
stands in its place, and what was wrong with the first is not reported. For all other files the report
is about the grammar in the file, linked against the last grammar of each scope.

- `lastWith`: the last of some grammars whose scope names a path.
- `CheckedFile.ofGrammar`: what is to be reported about a grammar.
- `Files.register_spec`, `Files.check_spec`: placing and checking succeed for files that load.
- `Files.reports_last_with_scope`: the main statement.
- `Files.check_silent_about_replaced`: not every file's diagnostics are reported.
-/

namespace Highlight

section

variable [Engine]

/-- The last of some grammars whose scope names a path. -/
def lastWith (grammars : List Grammar) (path : String) : Option Grammar :=
  grammars.reverse.find? fun g => g.scopeName.text == path

/-- What is held at paths after another grammar has been placed where its scope says. -/
def holdByScope (held : String → Option Grammar) (g : Grammar) : String → Option Grammar :=
  Function.update held g.scopeName.text (some g)

/-- What is to be reported about the grammar in a file, among the grammars that are held at paths. -/
def CheckedFile.ofGrammar (held : String → Option Grammar) (name : String) (g : Grammar) :
    CheckedFile :=
  ⟨name, g.scopeName, g.rules.size, (g.link g.scopeName.text held).diagnostics⟩

omit [Engine] in
theorem Scope.text_injective : Function.Injective Scope.text := by
  intro s s' h
  have hread := Scope.ofText_text s
  rw [h, Scope.ofText_text] at hread
  exact (Except.ok.inj hread).symm

/-! ## The last grammar of a scope -/

section Last

variable {grammars : List Grammar} {path : String} {g : Grammar}

theorem lastWith_cons (g : Grammar) (grammars : List Grammar) (path : String) :
    lastWith (g :: grammars) path =
      (lastWith grammars path).or (if g.scopeName.text = path then some g else none) := by
  unfold lastWith
  rw [List.reverse_cons, List.find?_append, List.find?_singleton]
  simp only [beq_iff_eq]

/-- Placing grammars one after the other leaves the last one of each scope. -/
theorem foldl_holdByScope (grammars : List Grammar) (held : String → Option Grammar) :
    grammars.foldl holdByScope held = fun path => (lastWith grammars path).or (held path) := by
  induction grammars generalizing held with
  | nil => rfl
  | cons g grammars ih =>
    rw [List.foldl_cons, ih]
    funext path
    rw [lastWith_cons, Option.or_assoc]
    congr 1
    rw [holdByScope, Function.update_apply]
    by_cases heq : g.scopeName.text = path
    · rw [if_pos heq, if_pos heq.symm]
      rfl
    · rw [if_neg heq, if_neg (Ne.symm heq)]
      rfl

theorem scope_of_lastWith (h : lastWith grammars path = some g) : g.scopeName.text = path := by
  unfold lastWith at h
  have hlast := List.find?_some h
  exact eq_of_beq hlast

/-- Each grammar has a last one of its scope. -/
theorem exists_lastWith (h : g ∈ grammars) :
    ∃ last, lastWith grammars g.scopeName.text = some last := by
  refine Option.isSome_iff_exists.1 (List.find?_isSome.2 ⟨g, List.mem_reverse.2 h, ?_⟩)
  exact beq_self_eq_true _

/-- A grammar is the last one of its scope if no later one has the scope. -/
theorem lastWith_append_cons {front back : List Grammar}
    (h : ∀ later ∈ back, later.scopeName ≠ g.scopeName) :
    lastWith (front ++ g :: back) g.scopeName.text = some g := by
  have hback : ∀ later ∈ back.reverse, ¬ (later.scopeName.text == g.scopeName.text) = true := by
    intro later hlater heq
    exact h later (List.mem_reverse.1 hlater) (Scope.text_injective (eq_of_beq heq))
  unfold lastWith
  rw [List.reverse_append, List.reverse_cons, List.append_assoc, List.find?_append,
    List.find?_eq_none.2 hback, Option.none_or, List.singleton_append, List.find?_cons,
    beq_self_eq_true]

end Last

/-! ## Placing and checking -/

theorem Grammar.exists_definition_of_ofJsonText {text : String} {g : Grammar}
    (h : Grammar.ofJsonText text = .ok g) : ∃ d, Grammar.ofDefinition d = .ok g := by
  unfold ofJsonText ofJson at h
  split at h
  · split at h
    · rename_i d _
      exact ⟨d, h⟩
    · cases h
  · cases h

/-- A grammar that was loaded can be placed where its scope says. -/
theorem Registry.checkPath_scopeName {d : GrammarDefinition} {g : Grammar}
    (h : Grammar.ofDefinition d = .ok g) : checkPath g.scopeName.text = .ok () := by
  unfold checkPath
  rw [Scope.ofText_text]
  simp only [Grammar.hasCaptures_of_ofDefinition h]
  rfl

namespace Files

variable {files : Files} {names : List String} {grammars : List Grammar}

theorem exists_definition_of_load {name : String} {g : Grammar} (h : files.load name = .ok g) :
    ∃ d, Grammar.ofDefinition d = .ok g := by
  unfold load at h
  split at h
  · exact Grammar.exists_definition_of_ofJsonText h
  · cases h
  · cases h

/-- A test that the grammar in a file passes says that the file loads. -/
theorem exists_load_of_any (files : Files) (name : String) (p : Grammar → Bool)
    (h : (files.load name).toOption.any p = true) : ∃ g, files.load name = .ok g ∧ p g = true := by
  cases hload : files.load name with
  | error fault =>
    rw [hload] at h
    cases h
  | ok g =>
    rw [hload] at h
    exact ⟨g, rfl, h⟩

/-- **Files that load can all be placed**, and each grammar takes the place of earlier ones of its
scope. -/
theorem register_spec (hloads : List.Forall₂ (fun name g => files.load name = .ok g) names grammars)
    {r : Registry} {held : String → Option Grammar} (h : r.Reached held) :
    ∃ placed, files.register names r = .ok (grammars.map Grammar.scopeName, placed) ∧
      placed.Reached (grammars.foldl holdByScope held) := by
  induction hloads generalizing r held with
  | nil => exact ⟨r, rfl, h⟩
  | @cons name g names grammars hload _ ih =>
    obtain ⟨d, hd⟩ := exists_definition_of_load hload
    obtain ⟨next, hregister⟩ : ∃ next, r.register g g.scopeName.text = .ok next :=
      ⟨_, Registry.register_eq_ok.2 ⟨Registry.checkPath_scopeName hd, rfl⟩⟩
    obtain ⟨placed, hplaced, hreached⟩ := ih (h.register hd hregister)
    refine ⟨placed, ?_, hreached⟩
    rw [register, hload]
    show ((r.register g g.scopeName.text).mapError _).bind _ = _
    rw [hregister]
    show (files.register names next).bind _ = _
    rw [hplaced]
    rfl

/-- The grammars that stand where the scopes of others say. -/
theorem exists_answering (among : List Grammar) {grammars : List Grammar} (h : grammars ⊆ among) :
    ∃ answering, List.Forall₂ (fun g last => lastWith among g.scopeName.text = some last) grammars
      answering := by
  induction grammars with
  | nil => exact ⟨[], .nil⟩
  | cons g grammars ih =>
    obtain ⟨last, hlast⟩ := exists_lastWith (h List.mem_cons_self)
    obtain ⟨answering, hanswering⟩ := ih fun g hg => h (List.mem_cons_of_mem _ hg)
    exact ⟨last :: answering, .cons hlast hanswering⟩

/-- What is found for the scopes of grammars in a registry that holds others in their places. -/
theorem filterMap_find? {r : Registry} {held : String → Option Grammar} (h : r.Linked held)
    (names : List String) {grammars answering : List Grammar}
    (hanswering : List.Forall₂ (fun g last =>
      held g.scopeName.text = some last ∧ last.scopeName = g.scopeName) grammars answering) :
    ((names.zip (grammars.map Grammar.scopeName)).filterMap fun (name, scope) =>
        (r.find? scope.text).map fun g =>
          (⟨name, scope, g.grammar.rules.size, g.diagnostics⟩ : CheckedFile)) =
      List.zipWith (CheckedFile.ofGrammar held) names answering := by
  induction hanswering generalizing names with
  | nil => simp
  | @cons g last grammars answering hlast _ ih =>
    obtain ⟨hheld, hscope⟩ := hlast
    cases names with
    | nil => rfl
    | cons name names =>
      have hhere : (r.find? g.scopeName.text).map (fun found =>
          (⟨name, g.scopeName, found.grammar.rules.size, found.diagnostics⟩ : CheckedFile)) =
          some (CheckedFile.ofGrammar held name last) := by
        rw [h.find?, hheld, CheckedFile.ofGrammar, hscope]
        rfl
      rw [List.map_cons, List.zip_cons_cons, List.filterMap_cons]
      simp only [hhere, ih names]
      rfl

/-- **Each file answers for the last grammar of its scope.** -/
theorem check_spec (hloads : List.Forall₂ (fun name g => files.load name = .ok g) names grammars) :
    ∃ answering,
      List.Forall₂ (fun g last => lastWith grammars g.scopeName.text = some last) grammars
        answering ∧
      files.check names =
        .ok (List.zipWith (CheckedFile.ofGrammar (lastWith grammars)) names answering) := by
  obtain ⟨answering, hanswering⟩ := exists_answering grammars (List.Subset.refl grammars)
  obtain ⟨placed, hplaced, hreached⟩ := register_spec hloads .empty
  have hheld : grammars.foldl holdByScope (fun _ => none) = lastWith grammars := by
    rw [foldl_holdByScope]
    funext path
    exact Option.or_none
  have hlinked : placed.Linked (lastWith grammars) := hheld ▸ hreached.linked
  refine ⟨answering, hanswering, ?_⟩
  rw [check, hplaced]
  refine congrArg Except.ok (filterMap_find? hlinked names ?_)
  exact hanswering.imp fun g last hlast =>
    ⟨hlast, Scope.text_injective (scope_of_lastWith hlast)⟩

/-- **Checking reports what is wrong with the last grammar of each scope.** When all files load, the
report on each is about the last grammar of its scope, which is the one in the file unless a later file
has the scope too, linked against the last grammars of all scopes. The exit code is zero exactly if
nothing is wrong with any of these. -/
theorem reports_last_with_scope (files : Files) (input : String) (arguments names : List String)
    (grammars : List Grammar) (hcheck : Command.ofArguments? arguments = some (.check names))
    (hloads : List.Forall₂ (fun name g => files.load name = .ok g) names grammars) :
    ∃ answering,
      List.Forall₂ (fun g last => lastWith grammars g.scopeName.text = some last) grammars
        answering ∧
      (let checked := List.zipWith (CheckedFile.ofGrammar (lastWith grammars)) names answering
       respond files input arguments =
        .ofLines (if checked.all (·.diagnostics.isEmpty) then 0 else 1)
          (checked.flatMap CheckedFile.lines)) ∧
      ∀ front g back, grammars = front ++ g :: back →
        (∀ later ∈ back, later.scopeName ≠ g.scopeName) → answering[front.length]? = some g := by
  obtain ⟨answering, hanswering, hreport⟩ := check_spec hloads
  refine ⟨answering, hanswering, ?_, ?_⟩
  · rw [respond, hcheck]
    show Outcome.ofExcept _ (files.check names) = _
    rw [hreport]
    rfl
  · rintro front g back rfl hlater
    obtain ⟨hlength, hget⟩ := List.forall₂_iff_get.1 hanswering
    have hlt : front.length < (front ++ g :: back).length := by simp
    have hlast := hget front.length hlt (hlength ▸ hlt)
    have hself : (front ++ g :: back).get ⟨front.length, hlt⟩ = g := by simp
    rw [hself, lastWith_append_cons hlater] at hlast
    rw [List.getElem?_eq_getElem (hlength ▸ hlt)]
    exact hlast.symm

end Files

end

namespace Files

set_option maxRecDepth 100000 in
/-- Two grammars that include each other, one of them with an include that names nothing. -/
theorem reports_last_with_scope_including :
    let files : Files := ⟨fun name =>
      if name = "a.json" then
        .ok ("\x7b\"scopeName\":\"x.a\",\"patterns\":[\x7b\"include\":\"x.b\"\x7d," ++
          "\x7b\"include\":\"#c\"\x7d]\x7d")
      else if name = "b.json" then
        .ok "\x7b\"scopeName\":\"x.b\",\"patterns\":[\x7b\"include\":\"x.a\"\x7d]\x7d"
      else .error .missing⟩
    ∃ g g', files.load "a.json" = .ok g ∧ files.load "b.json" = .ok g' ∧
      Command.ofArguments? ["check", "a.json", "b.json"] = some (.check ["a.json", "b.json"]) ∧
      let held := lastWith [g, g']
      let checked :=
        [CheckedFile.ofGrammar held "a.json" g, CheckedFile.ofGrammar held "b.json" g']
      respond files "" ["check", "a.json", "b.json"] =
        .ofLines (if checked.all (·.diagnostics.isEmpty) then 0 else 1)
          (checked.flatMap CheckedFile.lines) := by
  intro files
  obtain ⟨g, hg, hscope⟩ := exists_load_of_any files "a.json"
    (fun g => g.scopeName.text = "x.a") (by decide +kernel)
  obtain ⟨g', hg', hscope'⟩ := exists_load_of_any files "b.json"
    (fun g => g.scopeName.text = "x.b") (by decide +kernel)
  have hcheck : Command.ofArguments? ["check", "a.json", "b.json"] =
    some (.check ["a.json", "b.json"]) := by decide +kernel
  obtain ⟨answering, hanswering, hreport, hown⟩ := reports_last_with_scope files "" _ _ [g, g'] hcheck
    (.cons hg (.cons hg' .nil))
  have hne : g'.scopeName ≠ g.scopeName := by
    intro heq
    rw [heq, of_decide_eq_true hscope] at hscope'
    exact absurd hscope' (by decide)
  cases hanswering with
  | @cons _ last _ _ _ hrest =>
    cases hrest with
    | @cons _ last' _ _ _ hrest =>
      cases hrest
      obtain rfl : last = g := Option.some.inj (hown [] g [g'] rfl (by simpa using hne))
      obtain rfl : last' = g' := Option.some.inj (hown [last] g' [] rfl nofun)
      exact ⟨last, last', hg, hg', hcheck, hreport⟩

set_option maxRecDepth 100000 in
/-- A grammar with an empty rule, which a later file's grammar for the same scope stands in for: the
empty rule is not reported, and the exit code is zero. -/
theorem check_silent_about_replaced :
    let files : Files := ⟨fun name =>
      if name = "a.json" then .ok "\x7b\"scopeName\":\"source.x\",\"patterns\":[\x7b\x7d]\x7d"
      else if name = "b.json" then .ok "\x7b\"scopeName\":\"source.x\",\"patterns\":[]\x7d"
      else .error .missing⟩
    ∃ g g', files.load "a.json" = .ok g ∧ files.load "b.json" = .ok g' ∧
      g.diagnostics = [⟨"patterns[0]", .emptyRule⟩] ∧
      respond files "" ["check", "a.json", "b.json"] =
        ⟨0, "a.json (source.x): 1 rules, 0 diagnostics\n" ++
          "b.json (source.x): 1 rules, 0 diagnostics\n", ""⟩ := by
  intro files
  have hrespond : respond files "" ["check", "a.json", "b.json"] =
        ⟨0, "a.json (source.x): 1 rules, 0 diagnostics\n" ++
          "b.json (source.x): 1 rules, 0 diagnostics\n", ""⟩ := by
    decide +kernel
  obtain ⟨g, hg, hdiagnostics⟩ := exists_load_of_any files "a.json"
    (fun g => g.diagnostics = [⟨"patterns[0]", .emptyRule⟩]) (by decide +kernel)
  obtain ⟨g', hg', -⟩ := exists_load_of_any files "b.json" (fun _ => true) (by decide +kernel)
  exact ⟨g, g', hg, hg', of_decide_eq_true hdiagnostics, hrespond⟩

end Files

end Highlight
