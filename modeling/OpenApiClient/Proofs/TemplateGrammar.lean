import OpenApiClient.Proofs.Looks
import OpenApiClient.Url.PathTemplate
import Mathlib.Data.List.Chain

/-! # The grammar of path templates

A path template is made of characters that are no braces and of placeholders, which are names in
braces. A path is parsed exactly when it is a template. Its segments write it as it stands, no
literal among them is empty or follows another one, and no other segments do so. -/
namespace OpenApiClient.Url
open PathTemplate

variable {cs seen name rest : List Char} {segments : List Segment}

def isBrace (c : Char) : Bool := c == '\x7b' || c == '\x7d'

structure IsPlaceholderName (name : List Char) : Prop where
  plain : ∀ c ∈ name, isBrace c = false
  shown : name.all Text.isBlank = false

/-- The texts that are path templates. -/
inductive IsTemplate : List Char → Prop
  | nil : IsTemplate []
  | char {c : Char} {rest : List Char} (hc : isBrace c = false) (h : IsTemplate rest) :
      IsTemplate (c :: rest)
  | placeholder {name rest : List Char} (hname : IsPlaceholderName name) (h : IsTemplate rest) :
      IsTemplate ('\x7b' :: name ++ '\x7d' :: rest)

namespace Segment

def written : Segment → List Char
  | literal text => text.toList
  | placeholder name => '\x7b' :: name.toList ++ ['\x7d']

/-- A literal that is not empty and holds no brace, or a placeholder with a name for it. -/
def IsProper : Segment → Prop
  | literal text => text ≠ "" ∧ ∀ c ∈ text.toList, isBrace c = false
  | placeholder name => IsPlaceholderName name.toList

end Segment

/-- Segments that a text is split into. Of two neighbours one is a placeholder. -/
structure Splits (segments : List Segment) (cs : List Char) : Prop where
  written : segments.flatMap Segment.written = cs
  proper : ∀ s ∈ segments, s.IsProper
  apart : segments.IsChain fun s t => s.isPlaceholder ∨ t.isPlaceholder

/-! ## What a template is parsed to -/

theorem outside_append (h : ∀ c ∈ cs, isBrace c = false) (seen rest : List Char) :
    outside seen (cs ++ rest) = outside (seen ++ cs) rest := by
  induction cs generalizing seen with
  | nil => simp
  | cons c cs ih =>
    obtain ⟨hc, hcs⟩ := List.forall_mem_cons.mp h
    obtain ⟨hopen, hclose⟩ : c ≠ '\x7b' ∧ c ≠ '\x7d' := by simpa [isBrace] using hc
    rw [List.cons_append, outside, if_neg hopen, if_neg hclose, ih hcs]
    simp

private theorem inside_append (h : ∀ c ∈ cs, isBrace c = false) (seen rest : List Char) :
    inside seen (cs ++ rest) = inside (seen ++ cs) rest := by
  induction cs generalizing seen with
  | nil => simp
  | cons c cs ih =>
    obtain ⟨hc, hcs⟩ := List.forall_mem_cons.mp h
    obtain ⟨hopen, hclose⟩ : c ≠ '\x7b' ∧ c ≠ '\x7d' := by simpa [isBrace] using hc
    rw [List.cons_append, inside, if_neg hopen, if_neg hclose, ih hcs]
    simp

theorem outside_placeholder (hname : IsPlaceholderName name) (seen rest : List Char) :
    outside seen ('\x7b' :: name ++ '\x7d' :: rest) =
      (outside [] rest).map (literalSegment seen ++ .placeholder (String.ofList name) :: ·) := by
  have hclosed : inside name ('\x7d' :: rest) =
      (outside [] rest).map (.placeholder (String.ofList name) :: ·) := by
    rw [inside, if_neg (by decide), if_pos rfl, if_neg (by simp [hname.shown])]
  rw [List.cons_append, outside, if_pos rfl, inside_append hname.plain, List.nil_append, hclosed]
  cases outside [] rest <;> rfl

private theorem IsTemplate.exists_segments (h : IsTemplate cs) (seen : List Char) :
    ∃ segments, outside seen cs = .ok segments := by
  induction h generalizing seen with
  | nil => exact ⟨_, rfl⟩
  | @char c rest hc _ ih =>
    rw [← List.singleton_append, outside_append (by simpa using hc)]
    exact ih (seen ++ [c])
  | @placeholder name rest hname _ ih =>
    obtain ⟨segments, hsegments⟩ := ih []
    rw [outside_placeholder hname, hsegments]
    exact ⟨_, rfl⟩

/-- Segments are parsed from what they write, behind literal text where a placeholder comes
first. -/
theorem outside_written (hproper : ∀ s ∈ segments, s.IsProper)
    (hapart : segments.IsChain fun s t => s.isPlaceholder ∨ t.isPlaceholder)
    (hseen : seen = [] ∨ ∀ s ∈ segments.head?, s.isPlaceholder) :
    outside seen (segments.flatMap Segment.written) = .ok (literalSegment seen ++ segments) := by
  induction segments generalizing seen with
  | nil => simp [outside]
  | cons s segments ih =>
    obtain ⟨hs, hsegments⟩ := List.forall_mem_cons.mp hproper
    obtain ⟨hnext, hrest⟩ := List.isChain_cons.mp hapart
    cases s with
    | placeholder name =>
      have hlater := ih hsegments hrest (.inl rfl)
      rw [List.flatMap_cons, Segment.written, List.append_assoc, List.singleton_append,
        outside_placeholder hs, hlater]
      simp [Except.map, literalSegment]
    | literal text =>
      obtain rfl : seen = [] := hseen.resolve_right (by simp [Segment.isPlaceholder])
      have hnext : ∀ t ∈ segments.head?, t.isPlaceholder := by
        simpa [Segment.isPlaceholder] using hnext
      have hlater : outside text.toList (segments.flatMap Segment.written) = _ :=
        ih hsegments hrest (.inr hnext)
      have hne : text.toList.isEmpty = false := by simpa using hs.1
      rw [List.flatMap_cons, Segment.written, outside_append hs.2, List.nil_append, hlater]
      simp [literalSegment, hne]

theorem Splits.outside_eq (h : Splits segments cs) : outside [] cs = .ok segments := by
  rw [← h.written]
  exact outside_written h.proper h.apart (.inl rfl)

/-! ## What is parsed is a template -/

theorem Splits.literal (h : Splits segments cs) (hhead : ∀ s ∈ segments.head?, s.isPlaceholder)
    (hseen : ∀ c ∈ seen, isBrace c = false) :
    Splits (literalSegment seen ++ segments) (seen ++ cs) := by
  cases seen with
  | nil => exact h
  | cons c seen =>
    refine ⟨?_, List.forall_mem_cons.mpr ⟨?_, h.proper⟩, List.isChain_cons.mpr ⟨?_, h.apart⟩⟩
    · simp [literalSegment, Segment.written, h.written]
    · exact ⟨by simp, by simpa using hseen⟩
    · exact fun s hs => .inr (hhead s hs)

theorem Splits.placeholder (h : Splits segments cs) (hname : IsPlaceholderName name) :
    Splits (.placeholder (String.ofList name) :: segments) ('\x7b' :: name ++ '\x7d' :: cs) := by
  refine ⟨?_, List.forall_mem_cons.mpr ⟨?_, h.proper⟩, List.isChain_cons.mpr ⟨?_, h.apart⟩⟩
  · simp [Segment.written, h.written]
  · simpa [Segment.IsProper] using hname
  · exact fun s hs => .inl rfl

/-- The segments of a text split it, with the literal text or the start of the placeholder that was
seen before. -/
theorem splits_segments (cs : List Char) :
    (∀ seen segments, (∀ c ∈ seen, isBrace c = false) → outside seen cs = .ok segments →
      Splits segments (seen ++ cs)) ∧
    (∀ seen segments, (∀ c ∈ seen, isBrace c = false) → inside seen cs = .ok segments →
      Splits segments ('\x7b' :: seen ++ cs) ∧ ∀ s ∈ segments.head?, s.isPlaceholder) := by
  induction cs with
  | nil =>
    refine ⟨fun seen segments hseen h => ?_, fun seen segments _ h => ?_⟩
    · obtain rfl := Except.ok.inj h
      have hend : Splits [] [] := ⟨rfl, by simp, .nil⟩
      simpa using hend.literal (by simp) hseen
    · cases h
  | cons c cs ih =>
    have hplain : ∀ {seen : List Char}, (∀ d ∈ seen, isBrace d = false) → c ≠ '\x7b' → c ≠ '\x7d' →
        ∀ d ∈ seen ++ [c], isBrace d = false := by
      intro seen hseen hopen hclose d hd
      rcases List.mem_append.mp hd with hd | hd
      · exact hseen d hd
      · obtain rfl := List.mem_singleton.mp hd
        simp [isBrace, hopen, hclose]
    refine ⟨fun seen segments hseen h => ?_, fun seen segments hseen h => ?_⟩
    · rw [outside] at h
      split at h
      · rename_i hc
        obtain ⟨later, hlater, rfl⟩ := except_map_ok_iff.mp h
        obtain ⟨hsplits, hhead⟩ := ih.2 [] later (by simp) hlater
        exact hc ▸ hsplits.literal hhead hseen
      · rename_i hopen
        split at h
        · cases h
        · rename_i hclose
          simpa using ih.1 _ _ (hplain hseen hopen hclose) h
    · rw [inside] at h
      split at h
      · cases h
      · rename_i hopen
        split at h
        · rename_i hclose
          split at h
          · cases h
          · rename_i hblank
            obtain ⟨later, hlater, rfl⟩ := except_map_ok_iff.mp h
            have hname : IsPlaceholderName seen := ⟨hseen, by simpa using hblank⟩
            refine ⟨hclose ▸ (ih.1 [] later (by simp) hlater).placeholder hname, ?_⟩
            simp [Segment.isPlaceholder]
        · rename_i hclose
          simpa using ih.2 _ _ (hplain hseen hopen hclose) h

private theorem IsTemplate.append_plain (h : IsTemplate rest) (hcs : ∀ c ∈ cs, isBrace c = false) :
    IsTemplate (cs ++ rest) := by
  induction cs with
  | nil => exact h
  | cons c cs ih =>
    obtain ⟨hc, hcs⟩ := List.forall_mem_cons.mp hcs
    exact .char hc (ih hcs)

private theorem isTemplate_written (h : ∀ s ∈ segments, s.IsProper) :
    IsTemplate (segments.flatMap Segment.written) := by
  induction segments with
  | nil => exact .nil
  | cons s segments ih =>
    obtain ⟨hs, hsegments⟩ := List.forall_mem_cons.mp h
    cases s with
    | literal text => exact (ih hsegments).append_plain hs.2
    | placeholder name => simpa [Segment.written] using IsTemplate.placeholder hs (ih hsegments)

/-! ## Parsing -/

/-- A path is parsed to the segments that split it. -/
theorem parse_ok_iff {path : String} {t : PathTemplate} :
    parse path = .ok t ↔ t.source = path ∧ Splits t.segments path.toList := by
  rw [parse]
  constructor
  · intro h
    split at h
    · rename_i segments hsegments
      obtain rfl := Except.ok.inj h
      exact ⟨rfl, (splits_segments path.toList).1 [] segments (by simp) hsegments⟩
    · cases h
  · rintro ⟨rfl, hsplits⟩
    rw [hsplits.outside_eq]

theorem isTemplate_iff (path : String) : IsTemplate path.toList ↔ ∃ t, parse path = .ok t := by
  constructor
  · intro h
    obtain ⟨segments, hsegments⟩ := h.exists_segments []
    exact ⟨⟨path, segments⟩, by rw [parse, hsegments]⟩
  · rintro ⟨t, ht⟩
    obtain ⟨-, hsplits⟩ := parse_ok_iff.mp ht
    exact hsplits.written ▸ isTemplate_written hsplits.proper

/-- A path that is not parsed is told to be malformed. -/
theorem parse_error {path : String} {fault : Fault} (h : parse path = .error fault) :
    ∃ flaw : TemplateFlaw, fault = .of (.malformedTemplate (.text path) (.text flaw.reason)) := by
  rw [parse] at h
  split at h
  · cases h
  · exact ⟨_, (Except.error.inj h).symm⟩

/-- The paths that are parsed are the path templates, each into the one list of segments that splits
it, and every other path is malformed. -/
theorem parse_exact (path : String) :
    ((∃ t, parse path = .ok t) ↔ IsTemplate path.toList) ∧
      (∀ t, parse path = .ok t → t.source = path ∧ Splits t.segments path.toList ∧
        ∀ others, Splits others path.toList → others = t.segments) ∧
      (¬ IsTemplate path.toList → ∃ flaw : TemplateFlaw,
        parse path = .error (.of (.malformedTemplate (.text path) (.text flaw.reason)))) := by
  refine ⟨(isTemplate_iff path).symm, fun t ht => ?_, fun h => ?_⟩
  · obtain ⟨hsource, hsplits⟩ := parse_ok_iff.mp ht
    refine ⟨hsource, hsplits, fun others hothers => ?_⟩
    exact Except.ok.inj (hothers.outside_eq.symm.trans hsplits.outside_eq)
  · rw [isTemplate_iff] at h
    cases hparse : parse path with
    | ok t => exact absurd ⟨t, hparse⟩ h
    | error fault =>
      obtain ⟨flaw, rfl⟩ := parse_error hparse
      exact ⟨flaw, rfl⟩

/-- The path of an item is split as it shows, and is no template without the closing brace. -/
theorem parse_exact_item :
    (∃ t, parse "/\x7bid\x7d" = .ok t ∧ t.segments = [.literal "/", .placeholder "id"] ∧
      ∀ others, Splits others "/\x7bid\x7d".toList → others = t.segments) ∧
    ¬ IsTemplate "/\x7bid".toList ∧ ∃ flaw : TemplateFlaw,
      parse "/\x7bid" = .error (.of (.malformedTemplate (.text "/\x7bid") (.text flaw.reason))) := by
  have hitem : parse "/\x7bid\x7d" =
      .ok ⟨"/\x7bid\x7d", [.literal "/", .placeholder "id"]⟩ := rfl
  have hunclosed : ¬ IsTemplate "/\x7bid".toList := by
    rw [isTemplate_iff]
    rintro ⟨t, ht⟩
    cases ht
  obtain ⟨-, hsplits, -⟩ := parse_exact "/\x7bid\x7d"
  exact ⟨⟨_, hitem, rfl, (hsplits _ hitem).2.2⟩, hunclosed, (parse_exact "/\x7bid").2.2 hunclosed⟩

end OpenApiClient.Url
