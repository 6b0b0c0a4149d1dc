import OpenApiClient.Proofs.CollectedGroups

/-! # The names of classes

A class name shows the words of a tag by their capitals. A digit has no capital, so a word that starts
with one runs into the word before it, and two tags whose words differ in this alone give one class
name. Since nothing keeps the names of classes apart, two groups have one name exactly then. -/
namespace OpenApiClient

namespace Naming

variable {w : List Char} {ws vs : List (List Char)} {c : Char}

def startsDigit (w : List Char) : Bool := w.head?.any isPlainDigit

/-- The word before some words, put together with the first of them if that starts with a digit. -/
def glueWord (w : List Char) : List (List Char) → List (List Char)
  | [] => [w]
  | next :: rest => if startsDigit next then (w ++ next) :: rest else w :: next :: rest

/-- The words that the class name of a name shows: those of the name, with every one that starts with
a digit put behind the word before it. -/
def classWords (name : List Char) : List (List Char) :=
  match (wordChars name).foldr glueWord [] with
  | [] => [['m', 'o', 'd', 'e', 'l']]
  | w :: rest => if startsDigit w then ('t' :: w) :: rest else w :: rest

def IsShown (w : List Char) : Prop :=
  ∃ first rest, w = first :: rest ∧ isSmall first ∧ ∀ c ∈ rest, isWordChar c

/-- A text that is put behind a word, or all of one. -/
structure IsWord (w : List Char) : Prop where
  ne_nil : w ≠ []
  chars : ∀ c ∈ w, isWordChar c

theorem isWord_of_mem_wordChars {name : List Char} (h : w ∈ wordChars name) : IsWord w :=
  ⟨ne_nil_of_mem_wordChars h, fun _ => isWordChar_of_mem_wordChars h⟩

private theorem IsWord.shown (h : IsWord w) (hdigit : startsDigit w = false) : IsShown w := by
  obtain ⟨c, rest, rfl⟩ := List.exists_cons_of_ne_nil h.ne_nil
  have hdigit : isPlainDigit c = false := hdigit
  have hsmall : isSmall c := by simpa [isWordChar, hdigit] using h.chars c List.mem_cons_self
  exact ⟨c, rest, rfl, hsmall, fun d hd => h.chars d (List.mem_cons_of_mem _ hd)⟩

private theorem IsWord.append {v : List Char} (hw : IsWord w) (hv : IsWord v) : IsWord (w ++ v) where
  ne_nil := by simp [hw.ne_nil]
  chars c hc := (List.mem_append.mp hc).elim (hw.chars c) (hv.chars c)

theorem capitalized_append {v : List Char} (hw : w ≠ []) (hdigit : startsDigit v) :
    capitalized (w ++ v) = capitalized w ++ capitalized v := by
  obtain ⟨c, rest, rfl⟩ := List.exists_cons_of_ne_nil hw
  cases v with
  | nil => simp [capitalized]
  | cons d rest' =>
    have hd : isPlainDigit d := hdigit
    simp [capitalized, toUpper_of_isPlainDigit hd]

/-- Glued words show the same, and all but the first of them start with small letters. -/
theorem foldr_glueWord (h : ∀ w ∈ ws, IsWord w) :
    (ws.foldr glueWord []).flatMap capitalized = ws.flatMap capitalized ∧
      (∀ w ∈ ws.foldr glueWord [], IsWord w) ∧
      ∀ w ∈ (ws.foldr glueWord []).tail, startsDigit w = false := by
  induction ws with
  | nil => simp
  | cons w ws ih =>
    obtain ⟨hw, hws⟩ := List.forall_mem_cons.mp h
    obtain ⟨hshown, hwords, hfirst⟩ := ih hws
    rw [List.foldr_cons, List.flatMap_cons, ← hshown]
    cases hglued : ws.foldr glueWord [] with
    | nil => simp [glueWord, hw]
    | cons next rest =>
      rw [hglued] at hwords hfirst
      obtain ⟨hnext, hrest⟩ := List.forall_mem_cons.mp hwords
      by_cases hdigit : startsDigit next
      · simp only [glueWord, hdigit, if_true, List.flatMap_cons, List.tail_cons,
          capitalized_append hw.ne_nil hdigit, List.append_assoc, true_and]
        exact ⟨List.forall_mem_cons.mpr ⟨hw.append hnext, hrest⟩, hfirst⟩
      · have hdigit : startsDigit next = false := Bool.eq_false_iff.mpr hdigit
        simp only [glueWord, hdigit, Bool.false_eq_true, if_false, List.flatMap_cons,
          List.tail_cons, true_and]
        exact ⟨List.forall_mem_cons.mpr ⟨hw, hwords⟩, List.forall_mem_cons.mpr ⟨hdigit, hfirst⟩⟩

private theorem isPlainDigit_of_isCapital (h : isCapital c) : isPlainDigit c = false := by
  simp only [isCapital, isPlainDigit, Bool.and_eq_true, Bool.and_eq_false_iff, decide_eq_true_eq,
    decide_eq_false_iff_not, Char.le_def, UInt32.le_iff_toNat_le] at h ⊢
  have hA : 'A'.val.toNat = 65 := rfl
  have h9 : '9'.val.toNat = 57 := rfl
  omega

theorem classChars_eq (name : List Char) :
    classChars name = (classWords name).flatMap capitalized ∧ ∀ w ∈ classWords name, IsShown w := by
  obtain ⟨hshown, hwords, hfirst⟩ :=
    foldr_glueWord fun w (hw : w ∈ wordChars name) => isWord_of_mem_wordChars hw
  rw [classChars, ← hshown, classWords]
  cases hglued : (wordChars name).foldr glueWord [] with
  | nil =>
    refine ⟨rfl, ?_⟩
    simp only [List.mem_singleton, forall_eq]
    exact ⟨'m', _, rfl, rfl, Text.forall_mem_of_all (by decide)⟩
  | cons w rest =>
    rw [hglued] at hwords hfirst
    obtain ⟨hw, hrest⟩ := List.forall_mem_cons.mp hwords
    have hrest : ∀ v ∈ rest, IsShown v := fun v hv => (hrest v hv).shown (hfirst v hv)
    obtain ⟨c, cs, rfl⟩ := List.exists_cons_of_ne_nil hw.ne_nil
    by_cases hdigit : startsDigit (c :: cs)
    · have hc : isPlainDigit c := hdigit
      simp only [List.flatMap_cons, capitalized, toUpper_of_isPlainDigit hc, List.cons_append, hc,
        hdigit, if_true]
      exact ⟨rfl, List.forall_mem_cons.mpr ⟨⟨'t', _, rfl, rfl, hw.chars⟩, hrest⟩⟩
    · have hdigit : startsDigit (c :: cs) = false := Bool.eq_false_iff.mpr hdigit
      obtain ⟨_, _, heq, hsmall, hcs⟩ := hw.shown hdigit
      obtain ⟨rfl, rfl⟩ := List.cons.inj heq
      simp only [List.flatMap_cons, capitalized, List.cons_append, hdigit, Bool.false_eq_true,
        isPlainDigit_of_isCapital (isCapital_toUpper hsmall), if_false, true_and]
      exact List.forall_mem_cons.mpr ⟨⟨c, cs, rfl, hsmall, hcs⟩, hrest⟩

/-! ## Reading a class name -/

theorem isCapital_of_isWordChar (h : isWordChar c) : isCapital c = false := by
  simp only [isWordChar, isSmall, isPlainDigit, isCapital, Bool.or_eq_true, Bool.and_eq_true,
    Bool.and_eq_false_iff, decide_eq_true_eq, decide_eq_false_iff_not, Char.le_def,
    UInt32.le_iff_toNat_le] at h ⊢
  have hA : 'A'.val.toNat = 65 := rfl
  have hZ : 'Z'.val.toNat = 90 := rfl
  have ha : 'a'.val.toNat = 97 := rfl
  have h9 : '9'.val.toNat = 57 := rfl
  omega

private theorem toUpper_inj {d : Char} (hc : isSmall c) (hd : isSmall d) (h : c.toUpper = d.toUpper) :
    c = d := by
  have hval := congrArg Char.val h
  rw [val_toUpper hc, val_toUpper hd] at hval
  exact Char.ext ((UInt32.add_left_inj _).mp hval)

private theorem head?_flatMap_capitalized (h : ∀ w ∈ ws, IsShown w) :
    ∀ c ∈ (ws.flatMap capitalized).head?, isCapital c := by
  cases ws with
  | nil => simp
  | cons w ws =>
    obtain ⟨c, cs, rfl, hsmall, -⟩ := h w List.mem_cons_self
    rw [List.flatMap_cons, capitalized, List.cons_append, List.head?_cons]
    rintro _ ⟨⟩
    exact isCapital_toUpper hsmall

theorem takeWhile_shown {cs rest : List Char} (hcs : ∀ c ∈ cs, isWordChar c)
    (hrest : ∀ c ∈ rest.head?, isCapital c) :
    (cs ++ rest).takeWhile (fun c => !isCapital c) = cs := by
  rw [List.takeWhile_append_of_pos fun c hc => by simp [isCapital_of_isWordChar (hcs c hc)]]
  cases rest with
  | nil => simp
  | cons c rest => simp [hrest c rfl]

/-- Shown words can be read back from what shows them. -/
theorem flatMap_capitalized_inj (hws : ∀ w ∈ ws, IsShown w) (hvs : ∀ v ∈ vs, IsShown v)
    (h : ws.flatMap capitalized = vs.flatMap capitalized) : ws = vs := by
  induction ws generalizing vs with
  | nil =>
    cases vs with
    | nil => rfl
    | cons v vs =>
      obtain ⟨d, ds, rfl, -⟩ := hvs v List.mem_cons_self
      simp [capitalized] at h
  | cons w ws ih =>
    obtain ⟨⟨c, cs, rfl, hc, hcs⟩, hrests⟩ := List.forall_mem_cons.mp hws
    cases vs with
    | nil => simp [capitalized] at h
    | cons v vs =>
      obtain ⟨⟨d, ds, rfl, hd, hds⟩, hrests'⟩ := List.forall_mem_cons.mp hvs
      simp only [List.flatMap_cons, capitalized, List.cons_append] at h
      obtain ⟨hfirst, hrest⟩ := List.cons.inj h
      have htails : cs = ds := by
        rw [← takeWhile_shown hcs (head?_flatMap_capitalized hrests), hrest,
          takeWhile_shown hds (head?_flatMap_capitalized hrests')]
      rw [htails] at hrest ⊢
      rw [toUpper_inj hc hd hfirst, ih hrests hrests' (List.append_cancel_left hrest)]

/-- Two names give one class name exactly when the same words are shown. -/
theorem className_eq_iff (a b : String) :
    className a = className b ↔ classWords a.toList = classWords b.toList := by
  obtain ⟨ha, hwords⟩ := classChars_eq a.toList
  obtain ⟨hb, hwords'⟩ := classChars_eq b.toList
  rw [className, className, ha, hb]
  exact ⟨fun h => flatMap_capitalized_inj hwords hwords' (String.ofList_injective h),
    fun h => by rw [h]⟩

end Naming

namespace Operation

open Schema Schema.RegistryM

variable {document : Value} {shared : Members} {settings : Settings} {r t : Registry}
  {listed : List ListedOperation} {gs built : List TagGroup}

def tag? (o : ListedOperation) : Option String :=
  Except.toOption do
    let operation ← idOf o.declaration o.method o.path
    tagOf o.declaration operation

def firstTag? (settings : Settings) (listed : List ListedOperation) (name : String) :
    Option String :=
  (listed.find? (moduleName? settings · = some name)).bind tag?

theorem Builds.tag? {o : ListedOperation} {m : ClientMethod} (h : Builds settings o m) :
    tag? o = some m.tag := by
  rw [Operation.tag?, h.operation]
  dsimp only [bind, Except.bind]
  rw [h.tag]
  rfl

theorem Collected.className_eq (h : Collected document shared settings listed gs) {g : TagGroup}
    (hg : g ∈ gs) : ∃ tag, firstTag? settings listed g.name = some tag ∧
      g.className = Naming.className tag := by
  obtain ⟨m, hm, hclass⟩ := h.className g hg
  have hmethods := h.methods g hg
  obtain ⟨ms, hms⟩ := List.head?_eq_some_iff.mp hm
  rw [hms, List.forall₂_cons_right_iff] at hmethods
  obtain ⟨o, rest, hbuilt, -, hfilter⟩ := hmethods
  refine ⟨m.tag, ?_, hclass⟩
  rw [firstTag?, ← List.head?_filter, hfilter, List.head?_cons, Option.bind_some,
    hbuilt.builds.tag?]

/-- The groups of a document have different modules, and the class names of first tags. -/
theorem groups_className (h : outcome (groups document settings) r = (.ok built, t)) :
    ∃ listed : List ListedOperation, listing document = listed.map .ok ∧
      (built.map TagGroup.name).Nodup ∧
      (∀ o ∈ listed, ∃ g ∈ built, moduleName? settings o = some g.name) ∧
      ∀ g ∈ built, ∃ tag, firstTag? settings listed g.name = some tag ∧
        g.className = Naming.className tag := by
  obtain ⟨shared, listed, gs, -, hlisted, hcollects, rfl⟩ := groups_ok h
  have hgs := hcollects.collected
  have hperm := inOrder_perm (gs.map TagGroup.renamed)
  have hnames : (gs.map TagGroup.renamed).map TagGroup.name = gs.map TagGroup.name := by
    rw [List.map_map]
    rfl
  refine ⟨listed, hlisted, ?_, fun o ho => ?_, fun g hg => ?_⟩
  · exact (hperm.map TagGroup.name).nodup_iff.mpr (hnames ▸ hgs.nodup)
  · obtain ⟨g, hg, hmodule⟩ := hgs.modules o ho
    exact ⟨g.renamed, hperm.mem_iff.mpr (List.mem_map_of_mem hg), hmodule⟩
  · obtain ⟨old, hold, rfl⟩ := List.mem_map.mp (hperm.mem_iff.mp hg)
    exact hgs.className_eq (g := old) hold

/-- The class of a group is named by the tag of its first operation. All groups have different class
names exactly when the class names of no two of these tags show the same words. -/
theorem class_names_nodup_iff (h : outcome (groups document settings) r = (.ok built, t)) :
    ∃ listed : List ListedOperation, listing document = listed.map .ok ∧
      (∀ g ∈ built, ∃ tag, firstTag? settings listed g.name = some tag ∧
        g.className = Naming.className tag) ∧
      ((built.map TagGroup.className).Nodup ↔
        ∀ g ∈ built, ∀ g' ∈ built, ∀ tag tag',
          firstTag? settings listed g.name = some tag →
          firstTag? settings listed g'.name = some tag' →
          Naming.classWords tag.toList = Naming.classWords tag'.toList → g.name = g'.name) := by
  obtain ⟨listed, hlisted, hnames, -, htags⟩ := groups_className h
  refine ⟨listed, hlisted, htags, ?_⟩
  rw [List.nodup_map_iff_inj_on hnames.of_map]
  constructor
  · intro hinj g hg g' hg' tag tag' htag htag' hwords
    obtain ⟨_, hfound, hclass⟩ := htags g hg
    obtain ⟨_, hfound', hclass'⟩ := htags g' hg'
    obtain rfl := Option.some.inj (htag.symm.trans hfound)
    obtain rfl := Option.some.inj (htag'.symm.trans hfound')
    have hsame : g.className = g'.className := by
      rw [hclass, hclass', (Naming.className_eq_iff _ _).mpr hwords]
    rw [hinj g hg g' hg' hsame]
  · intro hdistinct g hg g' hg' hsame
    obtain ⟨tag, htag, hclass⟩ := htags g hg
    obtain ⟨tag', htag', hclass'⟩ := htags g' hg'
    rw [hclass, hclass', Naming.className_eq_iff] at hsame
    exact List.inj_on_of_nodup_map hnames hg hg' (hdistinct g hg g' hg' tag tag' htag htag' hsame)

def twoTagsRun (tag tag' : String) : Except Fault (List TagGroup) × Registry :=
  taggedRun [("/a", "list", tag), ("/b", "list", tag')]

theorem class_names_nodup_a1_b : ∃ built, (twoTagsRun "a1" "b").1 = .ok built ∧
    (built.map TagGroup.className).Nodup := by
  cases hrun : twoTagsRun "a1" "b" with
  | mk x r =>
    cases x with
    | error fault =>
      have hok : (twoTagsRun "a1" "b").1.isOk := by decide +kernel
      rw [hrun] at hok
      cases hok
    | ok built =>
      obtain ⟨listed, hlisted, -, hnodup⟩ := class_names_nodup_iff hrun
      have hfound : listed.map (fun o => (moduleName? .default o, tag? o)) =
          [(some "a1", some "a1"), (some "b", some "b")] := by
        rw [map_listed hlisted]
        decide
      have htag : ∀ name tag, firstTag? .default listed name = some tag → tag = name ∧
          tag ∈ ["a1", "b"] := by
        intro name tag htag
        obtain ⟨o, ho, htag⟩ := Option.bind_eq_some_iff.mp htag
        have hpair := List.mem_map_of_mem (f := fun o => (moduleName? .default o, tag? o))
          (List.mem_of_find?_eq_some ho)
        have hmodule : moduleName? .default o = some name := by simpa using List.find?_some ho
        rw [hfound, hmodule, htag] at hpair
        simp only [List.mem_cons, Prod.mk.injEq, Option.some.injEq, List.not_mem_nil,
          or_false] at hpair
        rcases hpair with ⟨rfl, rfl⟩ | ⟨rfl, rfl⟩ <;> simp
      refine ⟨built, rfl, hnodup.mpr fun g _ g' _ tag tag' hg hg' hwords => ?_⟩
      obtain ⟨rfl, hmem⟩ := htag _ _ hg
      obtain ⟨rfl, hmem'⟩ := htag _ _ hg'
      have hinj : ∀ s ∈ ["a1", "b"], ∀ s' ∈ ["a1", "b"],
          Naming.classWords s.toList = Naming.classWords s'.toList → s = s' := by decide
      exact hinj _ hmem _ hmem' hwords

/-- The tags `a1` and `a_1` are of different modules and of one class name. -/
theorem not_nodup_class_names : ¬ ∀ (document : Value) (settings : Settings)
    (built : List TagGroup) (t : Registry),
    outcome (groups document settings) {} = (.ok built, t) →
      (built.map TagGroup.className).Nodup := by
  intro h
  cases hrun : twoTagsRun "a1" "a_1" with
  | mk x r =>
    cases x with
    | error fault =>
      have hok : (twoTagsRun "a1" "a_1").1.isOk := by decide +kernel
      rw [hrun] at hok
      cases hok
    | ok built =>
      obtain ⟨listed, hlisted, -, hmodules, htags⟩ := groups_className hrun
      have hfound : listed.map (moduleName? .default) = [some "a1", some "a_1"] := by
        rw [map_listed hlisted]
        decide
      have hclass : ∀ name ∈ ["a1", "a_1"],
          ∃ g ∈ built, g.name = name ∧ g.className = "A1" := by
        intro name hname
        have hmodule : some name ∈ listed.map (moduleName? .default) := by
          rw [hfound]
          simpa using hname
        obtain ⟨o, ho, hmodule⟩ := List.mem_map.mp hmodule
        obtain ⟨g, hg, hmodule'⟩ := hmodules o ho
        obtain rfl := Option.some.inj (hmodule.symm.trans hmodule')
        obtain ⟨tag, htag, hclass⟩ := htags g hg
        have hfirst : ∀ name ∈ ["a1", "a_1"],
            (firstTag? .default listed name).map Naming.className = some "A1" := by
          have hall := map_listed hlisted id
          rw [List.map_id] at hall
          rw [hall]
          decide
        have heq := hfirst _ hname
        rw [htag, Option.map_some, ← hclass] at heq
        exact ⟨g, hg, rfl, Option.some.inj heq⟩
      obtain ⟨g, hg, hname, hclassName⟩ := hclass "a1" (by simp)
      obtain ⟨g', hg', hname', hclassName'⟩ := hclass "a_1" (by simp)
      have hsame : g = g' := List.inj_on_of_nodup_map (h _ _ _ _ hrun) hg hg'
        (hclassName.trans hclassName'.symm)
      rw [← hsame, hname] at hname'
      exact absurd hname' (by decide)

end Operation

end OpenApiClient
