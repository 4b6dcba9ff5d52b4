import FineractReports.Assistant.NamedEntities
import FineractReports.Execution.Parameters
import FineractReports.Library.Tokens
import FineractReports.Library.UnicodeCase

/-!
# Named entities in the user's own words

The value of a named entity is its words with one space between them. It stands in the message
where the words do, as long as they are one space apart there; nothing but spaces stands between
the words of a name, but there may be several.
-/

namespace FineractReports.Extraction

open Utf8

section Runs

variable (message : String)

/-- The tokens of each entity that is read. -/
def nameRunsFrom : (before : List Token) → (skip : ℕ) → List Token → List (List Token)
  | _, _, [] => []
  | before, skip + 1, token :: rest => nameRunsFrom (token :: before) skip rest
  | before, 0, token :: rest =>
    if isCapitalised token.text = true then
      let others := capitalisedRun message token rest
      ((capitalisedEntity message before (token :: others)).map fun _ => token :: others).toList ++
        nameRunsFrom (token :: before) others.length rest
    else match lowercaseNameRun message before token rest with
      | some (_, skip) => (token :: rest.take skip) :: nameRunsFrom (token :: before) skip rest
      | none =>
        ((lowercaseKindRun message before token rest).map fun _ =>
          before.take 1 ++ [token]).toList ++ nameRunsFrom (token :: before) 0 rest

def nameRuns : List (List Token) := nameRunsFrom message [] 0 (tokensWithSpans message)

/-- The words are one space apart. -/
def SingleSpaced (run : List Token) : Prop := run.IsChain fun a b => b.start = a.stop + 1

/-- The words of a name: tokens of the message with nothing but spaces between them. -/
structure IsNameRun (run : List Token) : Prop where
  inhabited : run ≠ []
  sublist : run.Sublist (tokensWithSpans message)
  together : run.IsChain fun a b => separated message a.stop b.start = false

end Runs

/-- Every entity of the message is one the user typed. -/
def ReadsVerbatim (tables : UnicodeCase) (message : String) : Prop :=
  ∀ entity ∈ extractNamedEntities message,
    Execution.occursVerbatim tables.toLowercase message entity.2 = true

/-- A name whose words are spread over several spaces also stands, up to case, with one space
between the words somewhere in the message. -/
def SpreadNamesRecur (tables : UnicodeCase) (message : String) : Prop :=
  ∀ run ∈ nameRuns message, ¬ SingleSpaced run →
    (tables.toLowercase (joinWords run)).toList <:+: (tables.toLowercase message).toList

/-! ### The runs are the words of the entities -/

section Values

variable {message : String} {before rest run : List Token} {token last : Token}

theorem capitalisedRun_together : (last :: capitalisedRun message last rest).IsChain
    fun a b => separated message a.stop b.start = false := by
  fun_induction capitalisedRun message last rest with
  | case1 last => exact .singleton last
  | case2 last next rest h ih => exact .cons_cons h.2 ih
  | case3 last next h => exact .singleton last
  | case4 last next h second others hhyphen ih =>
    exact .cons_cons hhyphen.2.2.1 (.cons_cons hhyphen.2.2.2 ih)
  | case5 last next h second others hhyphen => exact .singleton last

theorem capitalisedRun_isPrefix : capitalisedRun message last rest <+: rest := by
  fun_induction capitalisedRun message last rest with
  | case1 last => exact List.nil_prefix
  | case2 last next rest h ih => exact List.cons_prefix_cons.mpr ⟨rfl, ih⟩
  | case3 last next h => exact List.nil_prefix
  | case4 last next h second others hhyphen ih =>
    exact List.cons_prefix_cons.mpr ⟨rfl, List.cons_prefix_cons.mpr ⟨rfl, ih⟩⟩
  | case5 last next h second others hhyphen => exact List.nil_prefix

theorem capitalisedEntity_phrase {entity : NamedEntityKind × String}
    (h : capitalisedEntity message before run = some entity) : entity.2 = joinWords run := by
  unfold capitalisedEntity at h
  obtain ⟨first, -, h⟩ := Option.bind_eq_some_iff.mp h
  obtain ⟨anchorToken, -, h⟩ := Option.bind_eq_some_iff.mp h
  dsimp only at h
  split_ifs at h
  rw [← Option.some.inj h]

theorem nameWordsAfter_together (count : ℕ) :
    (last :: nameWordsAfter message count last rest).IsChain
      fun a b => separated message a.stop b.start = false := by
  induction count generalizing last rest with
  | zero => exact .singleton last
  | succ count ih =>
    cases rest with
    | nil => exact .singleton last
    | cons next rest =>
      rw [nameWordsAfter]
      split_ifs with h
      · exact .cons_cons h.1 ih
      · exact .singleton last

theorem nameWordsAfter_isPrefix (count : ℕ) : nameWordsAfter message count last rest <+: rest := by
  induction count generalizing last rest with
  | zero => exact List.nil_prefix
  | succ count ih =>
    cases rest with
    | nil => exact List.nil_prefix
    | cons next rest =>
      rw [nameWordsAfter]
      split_ifs with h
      · exact List.cons_prefix_cons.mpr ⟨rfl, ih⟩
      · exact List.nil_prefix

/-- A lowercase name is the token and those that follow it. -/
theorem lowercaseNameRun_spec {phrase : String} {skip : ℕ}
    (h : lowercaseNameRun message before token rest = some (phrase, skip)) :
    phrase = joinWords (token :: rest.take skip) ∧ (token :: rest.take skip).IsChain
      fun a b => separated message a.stop b.start = false := by
  unfold lowercaseNameRun at h
  obtain ⟨anchorToken, -, h⟩ := Option.bind_eq_some_iff.mp h
  dsimp only at h
  split_ifs at h with hrefused hperson
  obtain ⟨rfl, rfl⟩ := Prod.mk.inj (Option.some.inj h)
  have htake := List.prefix_iff_eq_take.mp
    (@nameWordsAfter_isPrefix message rest token (MAX_LOWERCASE_NAME_TOKENS - 1))
  rw [← htake]
  exact ⟨rfl, nameWordsAfter_together _⟩

/-- A lowercase kind is the qualifier and the domain noun. -/
theorem lowercaseKindRun_spec {entity : NamedEntityKind × String}
    (h : lowercaseKindRun message before token rest = some entity) :
    ∃ qualifier others, before = qualifier :: others ∧ entity.2 = joinWords [qualifier, token] ∧
      separated message qualifier.stop token.start = false := by
  -- the kind of the domain noun does not matter
  have hread : ∃ kind : NamedEntityKind,
      (if rest.head?.any (fun next => isNameWord next.text) = true then none
      else before.head?.bind fun qualifier =>
        if isCapitalised qualifier.text = true ∨
          separated message qualifier.stop token.start = true ∨
          isNameWord qualifier.text = false ∨ (phraseKind qualifier.text).isSome = true then none
        else some (kind, qualifier.text ++ " " ++ token.text)) = some entity := by
    unfold lowercaseKindRun at h
    dsimp only at h
    split at h
    · exact ⟨.chargeType, h⟩
    · split at h
      · exact ⟨.product, h⟩
      · cases h
  obtain ⟨kind, h⟩ := hread
  split_ifs at h
  obtain ⟨qualifier, hqualifier, hvalue⟩ := Option.bind_eq_some_iff.mp h
  split_ifs at hvalue with hrefused
  obtain ⟨others, rfl⟩ := List.head?_eq_some_iff.mp hqualifier
  refine ⟨qualifier, others, rfl, ?_, ?_⟩
  · rw [← Option.some.inj hvalue]
    simp [joinWords, String.intercalate_cons_cons, String.intercalate_singleton]
  · simp only [not_or] at hrefused
    simpa using hrefused.2.1

/-- The value of every entity is its words, joined. -/
theorem values_eq (before : List Token) (skip : ℕ) (tokens : List Token) :
    (readEntities message before skip tokens).map Prod.snd =
      (nameRunsFrom message before skip tokens).map joinWords := by
  fun_induction nameRunsFrom message before skip tokens with
  | case1 before skip => rfl
  | case2 before skip token rest ih => exact ih
  | case3 before token rest hcapital others ih =>
    rw [readEntities, if_pos hcapital, List.map_append, List.map_append, ih]
    congr 1
    cases hentity : capitalisedEntity message before (token :: others) with
    | none => rfl
    | some entity => simpa using capitalisedEntity_phrase hentity
  | case4 before token rest hcapital phrase skip hname ih =>
    rw [readEntities, if_neg hcapital, hname, List.map_cons, List.map_cons, ih]
    rw [(lowercaseNameRun_spec hname).1]
  | case5 before token rest hcapital hname ih =>
    rw [readEntities, if_neg hcapital, hname, List.map_append, List.map_append, ih]
    congr 1
    cases hkind : lowercaseKindRun message before token rest with
    | none => rfl
    | some entity =>
      obtain ⟨qualifier, others, rfl, hphrase, -⟩ := lowercaseKindRun_spec hkind
      simpa using hphrase

/-- The runs that are read are names of the message. -/
theorem isNameRun_of_mem (before : List Token) (skip : ℕ) (tokens : List Token)
    (htokens : before.reverse ++ tokens = tokensWithSpans message) :
    ∀ run ∈ nameRunsFrom message before skip tokens, IsNameRun message run := by
  fun_induction nameRunsFrom message before skip tokens with
  | case1 before skip => exact fun run hrun => by cases hrun
  | case2 before skip token rest ih => exact ih (by rw [← htokens]; simp)
  | case3 before token rest hcapital others ih =>
    intro run hrun
    cases List.mem_append.mp hrun with
    | inl hthis =>
      obtain ⟨entity, -, rfl⟩ := Option.map_eq_some_iff.mp (Option.mem_toList.mp hthis)
      refine ⟨List.cons_ne_nil _ _, ?_, capitalisedRun_together⟩
      rw [← htokens]
      exact (capitalisedRun_isPrefix.sublist.cons_cons token).trans (List.sublist_append_right _ _)
    | inr hlater => exact ih (by rw [← htokens]; simp) run hlater
  | case4 before token rest hcapital phrase skip hname ih =>
    intro run hrun
    cases List.mem_cons.mp hrun with
    | inl hthis =>
      subst hthis
      refine ⟨List.cons_ne_nil _ _, ?_, (lowercaseNameRun_spec hname).2⟩
      rw [← htokens]
      exact ((List.take_sublist skip rest).cons_cons token).trans (List.sublist_append_right _ _)
    | inr hlater => exact ih (by rw [← htokens]; simp) run hlater
  | case5 before token rest hcapital hname ih =>
    intro run hrun
    cases List.mem_append.mp hrun with
    | inl hthis =>
      obtain ⟨entity, hkind, rfl⟩ := Option.map_eq_some_iff.mp (Option.mem_toList.mp hthis)
      obtain ⟨qualifier, others, rfl, -, htogether⟩ := lowercaseKindRun_spec hkind
      refine ⟨by simp, ?_, .cons_cons htogether (.singleton token)⟩
      rw [← htokens, List.reverse_cons, List.append_assoc]
      have hpair : [qualifier, token].Sublist ([qualifier] ++ token :: rest) :=
        ((List.nil_sublist rest).cons_cons token).cons_cons qualifier
      exact hpair.trans (List.sublist_append_right _ _)
    | inr hlater => exact ih (by rw [← htokens]; simp) run hlater

end Values

/-! ### Where a run stands in the message -/

section Stretch

variable {message : String} {run : List Token}

theorem spanBetween_append {front gap back : List Char}
    (h : message.toList = front ++ gap ++ back) :
    spanBetween message (byteLength front) (byteLength (front ++ gap)) = gap := by
  have hlength : byteLength (front ++ gap) - byteLength front = byteLength gap := by
    rw [byteLength_append]
    omega
  rw [spanBetween, h, List.append_assoc, sliceFrom_append, Option.bind_some, hlength,
    sliceTo_append, Option.getD_some]

theorem joinWords_cons (first second : Token) (rest : List Token) :
    (joinWords (first :: second :: rest)).toList =
      first.text.toList ++ ' ' :: (joinWords (second :: rest)).toList := by
  simp [joinWords, String.intercalate_cons_cons]

/-- Words one space apart stand in the message as they are joined. -/
theorem stretch_of_singleSpaced (first : Token) (rest : List Token)
    (htokens : ∀ token ∈ first :: rest, IsTokenOf message.toList token)
    (htogether : (first :: rest).IsChain fun a b => separated message a.stop b.start = false)
    (hsingle : SingleSpaced (first :: rest)) :
    ∃ before after, message.toList = before ++ (joinWords (first :: rest)).toList ++ after ∧
      first.start = byteLength before := by
  induction rest generalizing first with
  | nil =>
    obtain ⟨before, after, htext, hstart, -⟩ := (htokens first List.mem_cons_self).parts
    refine ⟨before, after, ?_, hstart⟩
    rw [htext, joinWords, List.map_singleton, String.intercalate_singleton]
  | cons second rest ih =>
    obtain ⟨hgap, htogether⟩ := List.isChain_cons_cons.mp htogether
    obtain ⟨hnext, hsingle⟩ := List.isChain_cons_cons.mp hsingle
    obtain ⟨hfirst, htokens⟩ := List.forall_mem_cons.mp htokens
    obtain ⟨before, after, htext, hstart⟩ := ih second htokens htogether hsingle
    obtain ⟨front, back, hfirstText, hfirstStart, hfirstStop, -⟩ := hfirst.parts
    have hle : byteLength (front ++ first.text.toList) ≤ byteLength before := by omega
    obtain ⟨gap, rfl⟩ := exists_append_of_byteLength_le
      (hfirstText.symm.trans (htext.trans (List.append_assoc _ _ _))) hle
    -- the gap is one byte of spaces
    have hspan : spanBetween message first.stop second.start = gap := by
      rw [hfirstStop, hstart]
      exact spanBetween_append (htext.trans (List.append_assoc _ _ _))
    have hspaces : ∀ c ∈ gap, c = ' ' := by
      rw [separated, hspan, List.any_eq_false] at hgap
      simpa using hgap
    have hone : gap = [' '] := by
      have hlength : byteLength gap = 1 := by
        rw [byteLength_append] at hstart
        omega
      cases gap with
      | nil => simp at hlength
      | cons c gap =>
        obtain ⟨rfl, hgapSpaces⟩ := List.forall_mem_cons.mp hspaces
        rw [byteLength_cons, show Char.utf8Size ' ' = 1 by decide] at hlength
        rw [byteLength_eq_zero.mp (by omega : byteLength gap = 0)]
    refine ⟨front, after, ?_, hfirstStart⟩
    rw [htext, hone, joinWords_cons]
    simp

theorem isTokenChar_ascii {c : Char} (h : isTokenChar c = true) :
    c.toNat < 128 ∧ Text.isWhitespace c = false := by
  simp only [isTokenChar, Bool.or_eq_true, decide_eq_true_eq] at h
  rcases h with halphanum | rfl
  · constructor
    · simp only [Char.isAlphanum, Text.isAlpha_eq, Text.isUpper_eq, Text.isLower_eq, Char.isDigit,
        Char.toNat] at halphanum ⊢
      grind [UInt32.le_iff_toNat_le]
    · by_contra hblank
      rw [Text.whitespace_isAlphanum (by simpa using hblank)] at halphanum
      cases halphanum
  · decide

/-- Every character of joined words is one of a word or a space. -/
theorem mem_joinWords {c : Char} (h : c ∈ (joinWords run).toList) :
    c = ' ' ∨ ∃ token ∈ run, c ∈ token.text.toList := by
  induction run with
  | nil => simp [joinWords] at h
  | cons first rest ih =>
    cases rest with
    | nil =>
      rw [joinWords, List.map_singleton, String.intercalate_singleton] at h
      exact Or.inr ⟨first, List.mem_cons_self, h⟩
    | cons second rest =>
      rw [joinWords_cons, List.mem_append, List.mem_cons] at h
      rcases h with hfirst | hspace | hrest
      · exact Or.inr ⟨first, List.mem_cons_self, hfirst⟩
      · exact Or.inl hspace
      · exact (ih hrest).imp_right fun ⟨token, htoken, hc⟩ =>
          ⟨token, List.mem_cons_of_mem _ htoken, hc⟩

/-- Joined words begin as the first word does. -/
theorem head?_joinWords (first : Token) (rest : List Token) (hne : first.text.toList ≠ []) :
    (joinWords (first :: rest)).toList.head? = first.text.toList.head? := by
  cases rest with
  | nil => rw [joinWords, List.map_singleton, String.intercalate_singleton]
  | cons second rest => rw [joinWords_cons, List.head?_append_of_ne_nil _ hne]

/-- Joined words end with a character of the last word. -/
theorem getLast?_joinWords (hrun : ∀ token ∈ run, token.text.toList ≠ []) {c : Char}
    (h : c ∈ (joinWords run).toList.getLast?) : ∃ token ∈ run, c ∈ token.text.toList := by
  induction run with
  | nil => simp [joinWords] at h
  | cons first rest ih =>
    cases rest with
    | nil =>
      rw [joinWords, List.map_singleton, String.intercalate_singleton] at h
      exact ⟨first, List.mem_cons_self, List.mem_of_getLast? h⟩
    | cons second rest =>
      obtain ⟨-, hrest⟩ := List.forall_mem_cons.mp hrun
      have hne : (joinWords (second :: rest)).toList ≠ [] := by
        intro hnil
        have hhead := head?_joinWords second rest (hrest second List.mem_cons_self)
        rw [hnil, List.head?_nil, eq_comm, List.head?_eq_none_iff] at hhead
        exact hrest second List.mem_cons_self hhead
      rw [joinWords_cons, List.append_cons, List.getLast?_append_of_ne_nil _ hne] at h
      obtain ⟨token, htoken, hc⟩ := ih hrest h
      exact ⟨token, List.mem_cons_of_mem _ htoken, hc⟩

theorem trim_eq_self {text : String} (hhead : ∀ c ∈ text.toList.head?, Text.isWhitespace c = false)
    (hlast : ∀ c ∈ text.toList.getLast?, Text.isWhitespace c = false) : Text.trim text = text := by
  have hdrop : ∀ chars : List Char, (∀ c ∈ chars.head?, Text.isWhitespace c = false) →
      chars.dropWhile Text.isWhitespace = chars := by
    intro chars h
    cases chars with
    | nil => rfl
    | cons c rest => rw [List.dropWhile_cons_of_neg (by simp [h c rfl])]
  rw [Text.trim, Text.trimChars, hdrop _ hhead, hdrop, List.reverse_reverse, String.ofList_toList]
  rw [List.head?_reverse]
  exact hlast

variable {tables : UnicodeCase}

/-- A run is ASCII text without blanks at its ends. -/
theorem IsNameRun.text (h : IsNameRun message run) :
    (∀ c ∈ (joinWords run).toList, c.toNat < 128) ∧ Text.trim (joinWords run) = joinWords run ∧
      joinWords run ≠ "" := by
  have htokens : ∀ token ∈ run, IsTokenOf message.toList token := fun token htoken =>
    tokensWithSpans_isTokenOf (h.sublist.subset htoken)
  have hchars : ∀ token ∈ run, ∀ c ∈ token.text.toList,
      c.toNat < 128 ∧ Text.isWhitespace c = false := fun token htoken c hc =>
    isTokenChar_ascii ((htokens token htoken).run c hc)
  obtain ⟨first, rest, rfl⟩ := List.exists_cons_of_ne_nil h.inhabited
  have hfirst := (htokens first List.mem_cons_self).nonempty
  have hhead := head?_joinWords first rest hfirst
  refine ⟨?_, trim_eq_self ?_ ?_, ?_⟩
  · intro c hc
    rcases mem_joinWords hc with rfl | ⟨token, htoken, hin⟩
    · decide
    · exact (hchars token htoken c hin).1
  · intro c hc
    rw [hhead] at hc
    exact (hchars first List.mem_cons_self c (List.mem_of_head? hc)).2
  · intro c hc
    obtain ⟨token, htoken, hin⟩ :=
      getLast?_joinWords (fun token htoken => (htokens token htoken).nonempty) hc
    exact (hchars token htoken c hin).2
  · intro hempty
    rw [hempty] at hhead
    exact hfirst (List.head?_eq_none_iff.mp hhead.symm)

theorem occursVerbatim_joinWords (h : IsNameRun message run) :
    Execution.occursVerbatim tables.toLowercase message (joinWords run) = true ↔
      (tables.toLowercase (joinWords run)).toList <:+: (tables.toLowercase message).toList := by
  obtain ⟨-, htrim, hne⟩ := h.text
  unfold Execution.occursVerbatim
  rw [htrim, decide_eq_true_eq, Text.contains, Text.containsChars_iff]
  exact and_iff_right hne

/-- A name whose words are one space apart is one the user typed. -/
theorem occurs_of_singleSpaced (h : IsNameRun message run) (hsingle : SingleSpaced run) :
    (tables.toLowercase (joinWords run)).toList <:+: (tables.toLowercase message).toList := by
  obtain ⟨hascii, -, -⟩ := h.text
  have htokens : ∀ token ∈ run, IsTokenOf message.toList token := fun token htoken =>
    tokensWithSpans_isTokenOf (h.sublist.subset htoken)
  obtain ⟨first, rest, rfl⟩ := List.exists_cons_of_ne_nil h.inhabited
  obtain ⟨before, after, htext, -⟩ :=
    stretch_of_singleSpaced first rest htokens h.together hsingle
  rw [UnicodeCase.toLowercase_ascii hascii, Text.asciiLower, String.toList_ofList]
  exact UnicodeCase.infix_toLowercase htext hascii

end Stretch

/-- Exactly the messages whose spread names recur are read verbatim. -/
theorem readsVerbatim_iff (tables : UnicodeCase) (message : String) :
    ReadsVerbatim tables message ↔ SpreadNamesRecur tables message := by
  have hrun : ∀ run ∈ nameRuns message, IsNameRun message run :=
    isNameRun_of_mem [] 0 (tokensWithSpans message) rfl
  have hvalues : (extractNamedEntities message).map Prod.snd = (nameRuns message).map joinWords :=
    values_eq [] 0 (tokensWithSpans message)
  have hreads : ReadsVerbatim tables message ↔ ∀ run ∈ nameRuns message,
      (tables.toLowercase (joinWords run)).toList <:+: (tables.toLowercase message).toList := by
    have hall : ReadsVerbatim tables message ↔ ∀ value ∈ (extractNamedEntities message).map
        Prod.snd, Execution.occursVerbatim tables.toLowercase message value = true := by
      rw [List.forall_mem_map, ReadsVerbatim]
    rw [hall, hvalues, List.forall_mem_map]
    exact forall₂_congr fun run hmem => occursVerbatim_joinWords (hrun run hmem)
  rw [hreads]
  constructor
  · exact fun hoccurs run hmem _ => hoccurs run hmem
  · intro hrecur run hmem
    by_cases hsingle : SingleSpaced run
    · exact occurs_of_singleSpaced (hrun run hmem) hsingle
    · exact hrecur run hmem hsingle

/-- Two spaces in the message, one in the value. -/
theorem two_spaces_not_verbatim :
    extractNamedEntities "find client named John  Doe" = [(.person, "John Doe")] ∧
      ¬ ReadsVerbatim .ascii "find client named John  Doe" := by
  have hread : extractNamedEntities "find client named John  Doe" = [(.person, "John Doe")] := by
    decide +kernel
  refine ⟨hread, fun h => ?_⟩
  have hoccurs := h (.person, "John Doe") (by rw [hread]; exact List.mem_cons_self)
  revert hoccurs
  decide +kernel

end FineractReports.Extraction
