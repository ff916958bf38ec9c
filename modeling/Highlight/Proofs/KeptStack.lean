import Highlight.Proofs.JsonText
import Highlight.Proofs.ScopeText
import Highlight.Stack

/-!
# Stacks are read back from their kept form

What is kept of a stack is all there is to it at the end of a line: the offsets at which regions were
opened are gone by then, and scopes and patterns are written as texts that are read back. Only the
numbers of rules have a limit in the kept form.

- `Json.record?_ofFields`: the fields of a record, written as an object.
- `Frame.Keepable`, `Stack.Keepable`: frames and stacks of which nothing is lost.
- `Frame.ofJson?_toJson`, `Stack.ofJson?_toJson`, `Stack.ofText?_text`: they are read back.
- `Stack.keepable_of_ofText?`: stacks that were read are keepable.
-/

namespace Highlight

namespace Json

/-- The fields of an object whose keys are different fields of a record are the fields that were
written. -/
theorem record?_ofFields {names : List String} {fields : List (String × Json)}
    (hnames : ∀ field ∈ fields, field.1 ∈ names) (hdistinct : (fields.map Prod.fst).Nodup) :
    (ofFields fields).record? names = some fields := by
  show knownFields? names (fields.map fun field => (some field.1, field.2)) = some fields
  induction fields with
  | nil => rfl
  | cons field fields ih =>
    obtain ⟨key, value⟩ := field
    rw [List.map_cons, List.nodup_cons] at hdistinct
    have hrest := ih (fun field hf => hnames field (List.mem_cons_of_mem _ hf)) hdistinct.2
    have hkey : key ∈ names := hnames (key, value) List.mem_cons_self
    -- a key that came again would be refused
    have hnew : fields.any (fun field => field.1 == key) = false := by
      rw [List.any_eq_false]
      intro field hf heq
      exact hdistinct.1 (List.mem_map.2 ⟨field, hf, beq_iff_eq.1 heq⟩)
    rw [List.map_cons, knownFields?, hrest]
    simp [hkey, hnew]

end Json

/-! ## Frames -/

/-- A reference to a rule with a number of 32 bits is read back. -/
theorem RuleRef.ofJson?_toJson {r : RuleRef} (h : r.rule < UInt32.size) :
    ofJson? r.toJson = some r := by
  have hfields : r.toJson.record? ["grammar", "rule"] =
      some [("grammar", .ofString r.grammar), ("rule", .ofNat r.rule)] :=
    Json.record?_ofFields (by simp) (by simp)
  have hgrammar : (Json.ofString r.grammar).string? = some r.grammar := rfl
  have hrule : (Json.ofNat r.rule).nat? = some r.rule := rfl
  unfold ofJson?
  rw [hfields]
  simp [Json.required, List.lookup_cons, hgrammar, hrule, h]

/-- What is read as a reference to a rule has a number of 32 bits. -/
theorem RuleRef.lt_of_ofJson? {j : Json} {r : RuleRef} (h : ofJson? j = some r) :
    r.rule < UInt32.size := by
  unfold ofJson? at h
  obtain ⟨fields, -, h⟩ := Option.bind_eq_some_iff.1 h
  obtain ⟨grammar, -, h⟩ := Option.bind_eq_some_iff.1 h
  obtain ⟨rule, -, h⟩ := Option.bind_eq_some_iff.1 h
  split at h
  · rename_i hlt
    cases h
    exact hlt
  · cases h

namespace Frame

/-- The kept form holds all of a frame whose rule has a number of 32 bits, unless the frame still has
an offset on the line. -/
structure Keepable (f : Frame) : Prop where
  rule : f.rule.rule < UInt32.size
  entered : f.entered = none

theorem scopesOfJson?_ofStrings (scopes : List Scope) :
    scopesOfJson? (.ofStrings (scopes.map Scope.text)) = some scopes := by
  show ((scopes.map Scope.text).map Json.ofString).mapM
    (fun item => do (Scope.ofText (← item.string?)).toOption) = some scopes
  induction scopes with
  | nil => rfl
  | cons scope scopes ih =>
    have hscope : (do (Scope.ofText (← (Json.ofString scope.text).string?)).toOption)
        = some scope := by
      show (Scope.ofText scope.text).toOption = some scope
      rw [Scope.ofText_text]
      rfl
    rw [List.map_cons, List.map_cons, List.mapM_cons, hscope, ih]
    rfl

/-- A frame is read back from its kept form. -/
theorem ofJson?_toJson {f : Frame} (h : f.Keepable) : ofJson? f.toJson = some f := by
  obtain ⟨rule, nameScopes, contentScopes, endPattern, entered⟩ := f
  obtain ⟨hrule, hentered⟩ := h
  cases hentered
  have hname := scopesOfJson?_ofStrings nameScopes
  have hcontent := scopesOfJson?_ofStrings contentScopes
  have href := RuleRef.ofJson?_toJson hrule
  unfold ofJson? toJson
  cases endPattern with
  | none =>
    rw [Json.record?_ofFields (by simp) (by simp)]
    simp [Json.required, Json.optional, List.lookup_cons, hname, hcontent, href]
  | some pattern =>
    rw [Json.record?_ofFields (by simp) (by simp)]
    simp [Json.required, Json.optional, List.lookup_cons, hname, hcontent, href, Json.ofString,
      Json.string?]

/-- A frame that was read can be kept again. -/
theorem keepable_of_ofJson? {j : Json} {f : Frame} (h : ofJson? j = some f) : f.Keepable := by
  unfold ofJson? at h
  obtain ⟨fields, -, h⟩ := Option.bind_eq_some_iff.1 h
  obtain ⟨rule, hrule, h⟩ := Option.bind_eq_some_iff.1 h
  obtain ⟨nameScopes, -, h⟩ := Option.bind_eq_some_iff.1 h
  obtain ⟨contentScopes, -, h⟩ := Option.bind_eq_some_iff.1 h
  obtain ⟨endPattern, -, h⟩ := Option.bind_eq_some_iff.1 h
  cases h
  obtain ⟨field, -, href⟩ := Option.bind_eq_some_iff.1 hrule
  exact ⟨RuleRef.lt_of_ofJson? href, rfl⟩

/-- The kept form of a frame has strings, numbers and arrays of strings only. -/
theorem readable_toJson (f : Frame) : f.toJson.Readable := by
  have hscopes : ∀ scopes : List Scope, (Json.ofStrings (scopes.map Scope.text)).Readable := by
    intro scopes
    refine Json.readable_array fun item hitem => ?_
    obtain ⟨s, -, rfl⟩ := List.mem_map.1 hitem
    exact Json.readable_string s
  have href : f.rule.toJson.Readable := by
    refine Json.readable_object fun field hfield => ?_
    rcases List.mem_cons.1 hfield with rfl | hfield
    · exact Json.readable_string _
    · rw [List.mem_singleton] at hfield
      subst hfield
      exact Json.readable_nat _
  refine Json.readable_object fun field hfield => ?_
  rcases List.mem_append.1 hfield with hfield | hfield
  · simp only [List.mem_cons, List.not_mem_nil, or_false] at hfield
    rcases hfield with rfl | rfl | rfl
    · exact href
    · exact hscopes _
    · exact hscopes _
  · -- the pattern is left out when there is none
    split at hfield
    · rw [List.mem_singleton] at hfield
      subst hfield
      exact Json.readable_string _
    · cases hfield

end Frame

/-! ## Stacks -/

namespace Stack

/-- All frames are keepable. -/
def Keepable (s : Stack) : Prop := ∀ f ∈ s.frames, f.Keepable

theorem mapM_ofJson? {frames : List Frame} (h : ∀ f ∈ frames, f.Keepable) :
    (frames.map Frame.toJson).mapM Frame.ofJson? = some frames := by
  induction frames with
  | nil => rfl
  | cons f frames ih =>
    have hrest := ih fun g hg => h g (List.mem_cons_of_mem _ hg)
    rw [List.map_cons, List.mapM_cons, Frame.ofJson?_toJson (h f List.mem_cons_self), hrest]
    rfl

theorem ofJson?_toJson {s : Stack} (h : s.Keepable) : ofJson? s.toJson = some s := by
  have hfields : s.toJson.record? ["frames", "first_line"] =
      some [("frames", .array (s.frames.map Frame.toJson)), ("first_line", .bool s.firstLine)] :=
    Json.record?_ofFields (by simp) (by simp)
  have hframes := mapM_ofJson? h
  unfold ofJson?
  rw [hfields]
  simp only [Json.required, List.lookup_cons, Json.items?, Json.bool?, Option.bind_eq_bind,
    Option.bind_some, beq_self_eq_true, String.reduceBEq, hframes]
  simp [frames]

/-- **A keepable stack is read back from the text that it is kept as.** -/
theorem ofText?_text {s : Stack} (h : s.Keepable) : ofText? s.text = some s := by
  have hreadable : s.toJson.Readable := by
    refine Json.readable_object fun field hfield => ?_
    simp only [List.mem_cons, List.not_mem_nil, or_false] at hfield
    rcases hfield with rfl | rfl
    · refine Json.readable_array fun item hitem => ?_
      obtain ⟨f, -, rfl⟩ := List.mem_map.1 hitem
      exact f.readable_toJson
    · exact Json.readable_bool _
  unfold ofText? text
  rw [hreadable.ofText?_text]
  exact ofJson?_toJson h

theorem keepable_of_mapM {items : List Json} {frames : List Frame}
    (h : items.mapM Frame.ofJson? = some frames) : ∀ f ∈ frames, f.Keepable := by
  induction items generalizing frames with
  | nil =>
    cases h
    exact nofun
  | cons item items ih =>
    rw [List.mapM_cons] at h
    obtain ⟨f, hf, h⟩ := Option.bind_eq_some_iff.1 h
    obtain ⟨rest, hrest, h⟩ := Option.bind_eq_some_iff.1 h
    cases h
    intro g hg
    rcases List.mem_cons.1 hg with rfl | hg
    · exact Frame.keepable_of_ofJson? hf
    · exact ih hrest g hg

/-- Whatever text a stack was read from, it can be kept again. -/
theorem keepable_of_ofText? {kept : String} {s : Stack} (h : ofText? kept = some s) :
    s.Keepable := by
  obtain ⟨j, -, h⟩ := Option.bind_eq_some_iff.1 h
  unfold ofJson? at h
  obtain ⟨fields, -, h⟩ := Option.bind_eq_some_iff.1 h
  obtain ⟨items, -, h⟩ := Option.bind_eq_some_iff.1 h
  obtain ⟨frames, hframes, h⟩ := Option.bind_eq_some_iff.1 h
  obtain ⟨firstLine, -, h⟩ := Option.bind_eq_some_iff.1 h
  split at h
  · cases h
  · cases h
    have hall := keepable_of_mapM hframes
    intro f hf
    refine hall f ?_
    simpa [Stack.frames] using hf

end Stack

end Highlight
