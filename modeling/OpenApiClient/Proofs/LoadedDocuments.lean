import OpenApiClient.Document.Load
import OpenApiClient.Proofs.Looks
import OpenApiClient.Proofs.TextParts

/-! # What loading a document comes to

A file that can be read answers with a document, or with a failure that says that it holds none. There
is a third way: bytes that are no text, a flaw for which the reader does not call the text malformed, and
paths that cannot be counted end the program with a fault of their own. In JSON the only such flaws are a
whole number of too many digits and collections for which there is no room. -/
namespace OpenApiClient

namespace Text

theorem digitLimit_lt_of_readDigits? {cs : List Char} (hdigits : ∀ c ∈ cs, Json.isDigit c)
    (h : readDigits? cs = none) : digitLimit < cs.length := by
  refine (readDigits?_eq_none_iff.mp h).resolve_right ?_
  rintro ⟨c, hc, hnone⟩
  have hdigit : c.isDigit := hdigits c hc
  cases hnone.symm.trans (decimalDigit?_of_isDigit hdigit)

end Text

namespace Json

/-- Whether a text holds a whole number of too many digits. -/
def HasLongNumber (cs : List Char) : Prop :=
  ∃ digits, digits <:+: cs ∧ (∀ c ∈ digits, isDigit c) ∧ Text.digitLimit < digits.length

theorem HasLongNumber.of_suffix {cs ds : List Char} (h : HasLongNumber ds) (hsuffix : ds <:+ cs) :
    HasLongNumber cs := by
  obtain ⟨digits, hinfix, hdigits⟩ := h
  exact ⟨digits, hinfix.trans hsuffix.isInfix, hdigits⟩

private theorem consUnit_eq_some {units : Option (List Nat × List Char)} {unit : Nat} {all : List Nat}
    {rest : List Char}
    (h : (do let (units, rest) ← units; return (unit :: units, rest)) = some (all, rest)) :
    ∃ others, units = some (others, rest) := by
  cases units with
  | none => cases h
  | some p =>
    cases h
    exact ⟨_, rfl⟩

private theorem stringUnits_suffix {cs rest : List Char} {units : List Nat}
    (h : stringUnits cs = some (units, rest)) : rest <:+ cs := by
  fun_induction stringUnits cs generalizing units rest with
  | case1 => cases h
  | case2 more =>
    cases h
    exact List.suffix_cons _ _
  | case3 a b c d more ih =>
    obtain ⟨unit, -, h⟩ := Option.bind_eq_some_iff.mp h
    obtain ⟨others, hothers⟩ := consUnit_eq_some h
    exact (ih hothers).trans (List.suffix_append ['\\', 'u', a, b, c, d] more)
  | case4 e more _ ih =>
    obtain ⟨unit, -, h⟩ := Option.bind_eq_some_iff.mp h
    obtain ⟨others, hothers⟩ := consUnit_eq_some h
    exact (ih hothers).trans (List.suffix_append ['\\', e] more)
  | case5 => cases h
  | case6 =>
    rename_i ih
    obtain ⟨others, hothers⟩ := consUnit_eq_some h
    exact (ih hothers).trans (List.suffix_cons _ _)

private theorem fraction_suffix (cs : List Char) : (fraction cs).2 <:+ cs := by
  unfold fraction
  split
  · rename_i d rest
    split
    · exact (List.dropWhile_suffix _).trans (List.suffix_append ['.', d] rest)
    · exact List.suffix_rfl
  · exact List.suffix_rfl

private theorem exponent_suffix (cs : List Char) : (exponent cs).2 <:+ cs := by
  unfold exponent
  split
  · rename_i e rest
    split
    · split
      rename_i negative digits hsign
      have hdigits : digits <:+ rest := by
        split at hsign <;> cases hsign
        · exact List.suffix_cons _ _
        · exact List.suffix_cons _ _
        · exact List.suffix_rfl
      dsimp only
      split
      · exact List.suffix_rfl
      · exact (List.dropWhile_suffix _).trans (hdigits.trans (List.suffix_cons _ _))
    · exact List.suffix_rfl
  · exact List.suffix_rfl

private theorem number_suffix (negative : Bool) (cs : List Char) : (number negative cs).2 <:+ cs := by
  have hrest (n : Nat) : (exponent (fraction (cs.drop n)).2).2 <:+ cs :=
    (exponent_suffix _).trans ((fraction_suffix _).trans (List.drop_suffix _ _))
  unfold number
  extract_lets digits
  split
  · exact List.suffix_rfl
  · dsimp only
    split
    · split <;> exact hrest _
    · exact hrest _

private theorem token_suffix (cs : List Char) : (token cs).2 <:+ cs := by
  unfold token
  split
  case h_1 => exact List.suffix_rfl
  case h_8 =>
    split
    · rename_i hunits
      exact (stringUnits_suffix hunits).trans (List.suffix_cons _ _)
    · exact List.suffix_cons _ _
  case h_9 =>
    split
    · exact List.drop_suffix _ _
    · split
      · exact (number_suffix _ _).trans (List.suffix_cons _ _)
      · exact number_suffix _ _
  all_goals exact List.suffix_cons _ _

theorem number_oversized {negative : Bool} {cs : List Char}
    (h : (number negative cs).1 = .oversized) : HasLongNumber cs := by
  unfold number at h
  extract_lets digits at h
  have hprefix : digits <+: cs := by
    unfold digits
    split
    · exact List.cons_prefix_cons.mpr ⟨rfl, List.nil_prefix⟩
    · exact List.takeWhile_prefix _
  have hdigits : ∀ c ∈ digits, isDigit c := by
    unfold digits
    split
    · simp [isDigit]
    · exact List.all_eq_true.mp List.all_takeWhile
  split at h
  · cases h
  · dsimp only at h
    split at h
    · split at h
      · rename_i hread
        exact ⟨digits, hprefix.isInfix, hdigits, Text.digitLimit_lt_of_readDigits? hdigits hread⟩
      · cases h
    · cases h

private theorem token_oversized {cs : List Char} (h : (token cs).1 = .oversized) :
    HasLongNumber cs := by
  unfold token at h
  split at h
  case h_8 => split at h <;> cases h
  case h_9 =>
    split at h
    · cases h
    · split at h
      · exact (number_oversized h).of_suffix (List.suffix_cons _ _)
      · exact number_oversized h
  all_goals cases h

theorem tokens_oversized {cs : List Char} (h : .oversized ∈ tokens cs) : HasLongNumber cs := by
  fun_induction tokens cs with
  | case1 => cases h
  | case2 => simp at h
  | case3 cs c rest hcs t more htoken _ _ ih =>
    have hrest : c :: rest <:+ cs := hcs ▸ List.dropWhile_suffix _
    rcases List.mem_cons.mp h with rfl | hmore
    · exact (token_oversized (congrArg Prod.fst htoken)).of_suffix hrest
    · have hsuffix : more <:+ c :: rest := by simpa [htoken] using token_suffix (c :: rest)
      exact (ih hmore).of_suffix (hsuffix.trans hrest)
  | case4 => simp at h

theorem State.step_error {s : State} {t : Token} {flaw : ReadFlaw} (h : s.step t = .error flaw) :
    flaw = .malformed ∨ flaw = .badValue ∧ t = .oversized := by
  have hopen {frames : List Frame} (h : State.open frames t = .error flaw) :
      flaw = .malformed ∨ flaw = .badValue ∧ t = .oversized := by
    unfold State.open at h
    split at h <;> cases h
    · exact .inr ⟨rfl, rfl⟩
    · exact .inl rfl
  unfold State.step at h
  split at h
  case h_1 => exact hopen h
  case h_3 => exact hopen h
  case h_8 =>
    split at h <;> cases h
    exact .inl rfl
  all_goals
    cases h
    try exact .inl rfl

private theorem foldlM_step_error {ts : List Token} {s : State} {flaw : ReadFlaw}
    (h : ts.foldlM State.step s = .error flaw) :
    flaw = .malformed ∨ flaw = .badValue ∧ .oversized ∈ ts := by
  induction ts generalizing s with
  | nil => cases h
  | cons t rest ih =>
    rw [List.foldlM_cons] at h
    cases hstep : s.step t with
    | error early =>
      rw [hstep] at h
      cases h
      exact (State.step_error hstep).imp_right fun ⟨hflaw, ht⟩ => ⟨hflaw, ht ▸ List.mem_cons_self⟩
    | ok next =>
      rw [hstep] at h
      exact (ih h).imp_right fun ⟨hflaw, ht⟩ => ⟨hflaw, List.mem_cons_of_mem _ ht⟩

/-- A text in JSON is malformed, or a number in it has too many digits, or it is read. -/
theorem read_error {text : String} {flaw : ReadFlaw} (h : read text = .error flaw) :
    flaw = .malformed ∨ flaw = .badValue ∧ HasLongNumber text.toList := by
  unfold read at h
  cases hrun : (tokens text.toList).foldlM State.step ⟨[], .value⟩ with
  | error early =>
    rw [hrun] at h
    cases h
    exact (foldlM_step_error hrun).imp_right fun ⟨hflaw, ht⟩ => ⟨hflaw, tokens_oversized ht⟩
  | ok final =>
    rw [hrun] at h
    dsimp only [bind, Except.bind] at h
    unfold State.result at h
    split at h <;> cases h
    exact .inl rfl

/-- Whether more collections of a text are open at once than there is room for. -/
def IsDeep (room : Nat) (text : String) : Prop :=
  ∃ (before : List Token) (s : State), before <+: tokens text.toList ∧
    before.foldlM State.step ⟨[], .value⟩ = .ok s ∧ room < s.depth

private theorem foldlM_stepWithin_of_fits {room : Nat} {ts : List Token} {s : State}
    (h : ∀ before next, before <+: ts → before.foldlM State.step s = .ok next → next.depth ≤ room) :
    ts.foldlM (State.stepWithin room) s = ts.foldlM State.step s := by
  induction ts generalizing s with
  | nil => rfl
  | cons t rest ih =>
    rw [List.foldlM_cons, List.foldlM_cons, State.stepWithin]
    cases hstep : s.step t with
    | error flaw => rfl
    | ok next =>
      have hfrom (before : List Token) :
          (t :: before).foldlM State.step s = before.foldlM State.step next := by
        rw [List.foldlM_cons, hstep]
        rfl
      have hnext : ¬ room < next.depth :=
        Nat.not_lt.mpr (h [t] next (by simp) (hfrom []))
      have hrest := ih fun before last hbefore hlast =>
        h (t :: before) last (List.cons_prefix_cons.mpr ⟨rfl, hbefore⟩) ((hfrom before).trans hlast)
      simp only [bind, Except.bind, if_neg hnext]
      exact hrest

private theorem foldlM_stepWithin_of_deep {room : Nat} {ts before : List Token} {s last : State}
    (hs : s.depth ≤ room) (hbefore : before <+: ts) (hlast : before.foldlM State.step s = .ok last)
    (hdeep : room < last.depth) : ts.foldlM (State.stepWithin room) s = .error .endless := by
  induction before generalizing ts s with
  | nil =>
    obtain rfl : s = last := Except.ok.inj hlast
    exact absurd hdeep (Nat.not_lt.mpr hs)
  | cons t before ih =>
    obtain ⟨rest, rfl, hrest⟩ := List.cons_prefix_iff.mp hbefore
    rw [List.foldlM_cons, State.stepWithin]
    rw [List.foldlM_cons] at hlast
    cases hstep : s.step t with
    | error flaw =>
      rw [hstep] at hlast
      cases hlast
    | ok next =>
      rw [hstep] at hlast
      by_cases hnext : room < next.depth
      · simp only [bind, Except.bind, if_pos hnext]
        rfl
      · simp only [bind, Except.bind, if_neg hnext]
        exact ih (Nat.not_lt.mp hnext) hrest hlast

private theorem readWithin_of_isDeep {room : Nat} {text : String} (h : IsDeep room text) :
    readWithin room text = .error .endless := by
  obtain ⟨before, s, hbefore, hs, hdeep⟩ := h
  rw [readWithin, foldlM_stepWithin_of_deep (Nat.zero_le room) hbefore hs hdeep]
  rfl

private theorem readWithin_of_not_isDeep {room : Nat} {text : String} (h : ¬ IsDeep room text) :
    readWithin room text = read text := by
  have hfits (before : List Token) (next : State) (hbefore : before <+: tokens text.toList)
      (hnext : before.foldlM State.step ⟨[], .value⟩ = .ok next) : next.depth ≤ room :=
    Nat.not_lt.mp fun hdeep => h ⟨before, next, hbefore, hnext, hdeep⟩
  rw [readWithin, foldlM_stepWithin_of_fits hfits, read]

end Json

namespace Value

/-- A value whose parts can be counted: a collection or a text. -/
def IsCountable (v : Value) : Prop := ∀ s, v = .scalar s → ∃ text, s = .text text

theorem size_isSome_iff {v : Value} : v.size.toOption.isSome ↔ v.IsCountable := by
  rcases v with ⟨_ | _ | _ | _ | text⟩ | items | ms <;>
    simp [size, elements, IsCountable, Except.map, Except.toOption]

end Value

namespace Document

variable {files : FileTree} {path : PathName} {content : ByteArray} {text name : String}
  {host : Host} {reader : Reader}

/-- An answer about a file: a source with paths, or a failure to load one. -/
def IsAnswer : Except Fault Source → Prop
  | .ok source => ∃ ms, source.document = .mapping ms ∧ Members.has ms "paths"
  | .error (.failure f) => f.cause.kind = .documentLoad
  | .error _ => False

/-- A text that a reader calls malformed, or reads as something without paths or with paths that can be
counted. -/
def Reader.Answers (reader : Reader) (text : String) : Prop :=
  match reader.read text with
  | .error flaw => flaw = .malformed
  | .ok d => ∀ paths, reader.paths? d = some paths → (reader.length? paths).isSome

theorem textOf_ok_iff : textOf content = .ok text ↔ ∃ written : String, written.toUTF8 = content ∧
    text = String.ofList (unifyLineEnds written.toList) := by
  unfold textOf String.fromUTF8?
  split
  · rename_i s hs
    split at hs
    · rename_i hvalid
      obtain rfl := Option.some.inj hs
      simp only [Except.ok.injEq]
      constructor
      · rintro rfl
        exact ⟨_, rfl, rfl⟩
      · rintro ⟨written, rfl, rfl⟩
        rfl
    · cases hs
  · rename_i hnone
    split at hnone
    · cases hnone
    · rename_i hvalid
      refine ⟨nofun, ?_⟩
      rintro ⟨written, rfl, -⟩
      exact absurd written.isValidUTF8 hvalid

private theorem textOf_error {fault : Fault} (h : textOf content = .error fault) :
    fault = .undecodable := by
  unfold textOf at h
  split at h <;> cases h
  rfl

theorem isAnswer_source_iff {d : reader.Datum} : IsAnswer (reader.source name d) ↔
    ∀ paths, reader.paths? d = some paths → (reader.length? paths).isSome := by
  unfold Reader.source
  cases hpaths : reader.paths? d with
  | none => exact ⟨fun _ => nofun, fun _ => rfl⟩
  | some paths =>
    have hdocument := reader.document_of_paths? (Option.isSome_iff_exists.mpr ⟨paths, hpaths⟩)
    simp only [Option.some.injEq, forall_eq']
    cases reader.length? paths with
    | none => exact ⟨nofun, nofun⟩
    | some count => exact ⟨fun _ => rfl, fun _ => hdocument⟩

/-- A text gives an answer exactly when what its reader says can be answered. -/
theorem isAnswer_load_iff : IsAnswer (reader.load path text) ↔ reader.Answers text := by
  unfold Reader.load Reader.Answers
  cases reader.read text with
  | ok d => exact isAnswer_source_iff
  | error flaw => cases flaw <;> simp [IsAnswer, flawFault, Fault.of, Cause.kind]

/-- In JSON, a value is read or the text is malformed, unless a number has too many digits or there is
no room for the collections. -/
theorem answers_json_iff {room : Nat} (h : ¬ Json.HasLongNumber text.toList) :
    (Reader.ofValues (Json.readWithin room)).Answers text ↔ ¬ Json.IsDeep room text ∧
      ∀ ms paths, Json.read text = .ok (.mapping ms) → Members.get? ms "paths" = some paths →
        paths.IsCountable := by
  unfold Reader.Answers Reader.ofValues
  dsimp only
  by_cases hdeep : Json.IsDeep room text
  · rw [Json.readWithin_of_isDeep hdeep]
    exact ⟨nofun, fun hfits => absurd hdeep hfits.1⟩
  · rw [Json.readWithin_of_not_isDeep hdeep]
    cases hread : Json.read text with
    | error flaw =>
      obtain rfl : flaw = .malformed := (Json.read_error hread).resolve_right fun hlong => h hlong.2
      exact ⟨fun _ => ⟨hdeep, nofun⟩, fun _ => rfl⟩
    | ok v =>
      simp only [Value.size_isSome_iff, hdeep, not_false_iff, true_and, Except.ok.injEq]
      cases v with
      | mapping ms => exact ⟨fun hv _ paths heq => Value.mapping.inj heq ▸ hv paths,
        fun hv paths => hv ms paths rfl⟩
      | scalar s => exact ⟨fun _ => nofun, fun _ => nofun⟩
      | sequence items => exact ⟨fun _ => nofun, fun _ => nofun⟩

theorem load_eq (hread : files.read path = .ok content) :
    load files path host = (textOf content).bind ((host.readerOf path).load path) := by
  rw [load, hread]
  rfl

/-- A file that can be read gives an answer exactly when its bytes are a text, and the reader of its
format calls this text malformed, or reads something without paths or with paths that can be counted. In
JSON, where no number has too many digits, only the paths and the room for collections decide. -/
theorem load_isAnswer_iff (hread : files.read path = .ok content) :
    (IsAnswer (load files path host) ↔
      ∃ text, textOf content = .ok text ∧ (host.readerOf path).Answers text) ∧
    (path.isYaml = false → ∀ text, textOf content = .ok text → ¬ Json.HasLongNumber text.toList →
      (IsAnswer (load files path host) ↔ ¬ Json.IsDeep host.room text ∧
        ∀ ms paths, Json.read text = .ok (.mapping ms) → Members.get? ms "paths" = some paths →
          paths.IsCountable)) := by
  have hanswer : IsAnswer (load files path host) ↔
      ∃ text, textOf content = .ok text ∧ (host.readerOf path).Answers text := by
    rw [load_eq hread]
    cases htext : textOf content with
    | error fault =>
      obtain rfl : fault = .undecodable := textOf_error htext
      exact ⟨nofun, nofun⟩
    | ok text =>
      simp only [Except.bind, isAnswer_load_iff, Except.ok.injEq, exists_eq_left']
  refine ⟨hanswer, fun hjson text htext hlong => ?_⟩
  have hreader : host.readerOf path = .ofValues (Json.readWithin host.room) := by
    rw [Host.readerOf, hjson]
    rfl
  rw [hanswer, hreader, ← answers_json_iff hlong]
  simp only [htext, Except.ok.injEq, exists_eq_left']

def pathsText (paths : String) : String := "\x7b\"paths\": " ++ paths ++ "\x7d"

def jsonName : PathName := ⟨"", ["a.json"]⟩

def jsonFile (text : String) : FileTree := FileTree.withFile {} ["a.json"] text.toUTF8

theorem read_jsonFile (text : String) : (jsonFile text).read jsonName = .ok text.toUTF8 := rfl

theorem readerOf_jsonName :
    ({} : Host).readerOf jsonName = .ofValues (Json.readWithin callLimit) :=
  if_neg (by decide)

theorem load_isAnswer_of_empty_paths :
    (jsonFile (pathsText "[]")).read jsonName = .ok (pathsText "[]").toUTF8 ∧
      IsAnswer (load (jsonFile (pathsText "[]")) jsonName) := by
  have htext : textOf (pathsText "[]").toUTF8 = .ok (pathsText "[]") :=
    textOf_ok_iff.mpr ⟨_, rfl, by decide⟩
  have htokens : Json.tokens (pathsText "[]").toList = [.openMapping, .scalar (.text "paths"), .colon,
      .openSequence, .closeSequence, .closeMapping] := by decide +kernel
  have hread : Json.readWithin callLimit (pathsText "[]") =
      .ok (.mapping [(.text "paths", .sequence [])]) := by
    rw [Json.readWithin, htokens]
    rfl
  refine ⟨read_jsonFile _, (load_isAnswer_iff (read_jsonFile _)).1.mpr ⟨_, htext, ?_⟩⟩
  rw [readerOf_jsonName, Reader.Answers, Reader.ofValues]
  dsimp only
  rw [hread]
  intro paths hpaths
  obtain rfl : .sequence [] = paths := Option.some.inj hpaths
  rfl

/-- Paths that are null cannot be counted. -/
theorem not_load_isAnswer : ¬ ∀ (files : FileTree) (path : PathName) (content : ByteArray),
    files.read path = .ok content → IsAnswer (load files path) := by
  intro h
  have htext : textOf (pathsText "null").toUTF8 = .ok (pathsText "null") :=
    textOf_ok_iff.mpr ⟨_, rfl, by decide⟩
  have htokens : Json.tokens (pathsText "null").toList =
      [.openMapping, .scalar (.text "paths"), .colon, .scalar .null, .closeMapping] := by
    decide +kernel
  have hread : Json.readWithin callLimit (pathsText "null") =
      .ok (.mapping [(.text "paths", .null)]) := by
    rw [Json.readWithin, htokens]
    rfl
  have hanswer := h _ _ _ (read_jsonFile (pathsText "null"))
  rw [load_eq (read_jsonFile _), htext, Except.bind, isAnswer_load_iff, readerOf_jsonName,
    Reader.Answers, Reader.ofValues] at hanswer
  dsimp only at hanswer
  rw [hread] at hanswer
  cases hanswer .null rfl

end Document

end OpenApiClient
