import FineractReports.Library.Text
import FineractReports.Library.Utf8

/-!
# Tokens of a message

The runs of ASCII letters, digits and hyphens of a message, with their byte offsets. The
tokens are the maximal runs, they come in the order of the text, and ASCII case changes
their texts only.
-/

namespace FineractReports

open FineractReports.Utf8

structure Token where
  text : String
  start : ℕ
  stop : ℕ
deriving DecidableEq, Repr

def isTokenChar (c : Char) : Bool := c.isAlphanum || c = '-'

/-- The token that is being read, closed at an offset. -/
def closeToken : Option (ℕ × List Char) → ℕ → List Token
  | none, _ => []
  | some (start, run), stop => [⟨String.ofList run, start, stop⟩]

def extendToken : Option (ℕ × List Char) → ℕ → Char → ℕ × List Char
  | none, index, c => (index, [c])
  | some (start, run), _, c => (start, run ++ [c])

/-- `begun` is the token that is being read; `index` the offset of the next character. -/
def scanTokens : Option (ℕ × List Char) → ℕ → List Char → List Token
  | begun, index, [] => closeToken begun index
  | begun, index, c :: rest =>
    if isTokenChar c = true then
      scanTokens (some (extendToken begun index c)) (index + c.utf8Size) rest
    else closeToken begun index ++ scanTokens none (index + c.utf8Size) rest

def tokensWithSpans (message : String) : List Token := scanTokens none 0 message.toList

/-- A maximal run of token characters in the text, with its byte offsets. -/
structure IsTokenOf (text : List Char) (token : Token) : Prop where
  parts : ∃ before after, text = before ++ token.text.toList ++ after ∧
    token.start = byteLength before ∧
    token.stop = byteLength (before ++ token.text.toList) ∧
    (∀ c ∈ before.getLast?, isTokenChar c = false) ∧ ∀ c ∈ after.head?, isTokenChar c = false
  nonempty : token.text.toList ≠ []
  run : ∀ c ∈ token.text.toList, isTokenChar c = true

/-- The token being read when `done` has been consumed. -/
def Begun (done : List Char) : Option (ℕ × List Char) → Prop
  | none => ∀ c ∈ done.getLast?, isTokenChar c = false
  | some (start, run) => ∃ before, done = before ++ run ∧ start = byteLength before ∧
      run ≠ [] ∧ (∀ c ∈ run, isTokenChar c = true) ∧
      ∀ c ∈ before.getLast?, isTokenChar c = false

section Scan

variable {done rest : List Char} {begun : Option (ℕ × List Char)} {c : Char}

theorem Begun.extend (h : Begun done begun) (hc : isTokenChar c = true) :
    Begun (done ++ [c]) (some (extendToken begun (byteLength done) c)) := by
  cases begun with
  | none => exact ⟨done, rfl, rfl, by simp, by simpa using hc, h⟩
  | some token =>
    obtain ⟨start, run⟩ := token
    obtain ⟨before, rfl, hstart, -, hrun, hbefore⟩ := h
    refine ⟨before, by simp, hstart, by simp, ?_, hbefore⟩
    intro d hd
    rcases List.mem_append.mp hd with hin | hin
    · exact hrun d hin
    · rw [List.mem_singleton.mp hin]
      exact hc

theorem Begun.close (h : Begun done begun) (hrest : ∀ c ∈ rest.head?, isTokenChar c = false) :
    ∀ token ∈ closeToken begun (byteLength done), IsTokenOf (done ++ rest) token ∧
      token.stop = byteLength done := by
  intro token htoken
  cases begun with
  | none => cases htoken
  | some read =>
    obtain ⟨start, run⟩ := read
    obtain ⟨before, rfl, rfl, hne, hrun, hbefore⟩ := h
    rw [closeToken, List.mem_singleton] at htoken
    subst htoken
    refine ⟨⟨⟨before, rest, ?_⟩, ?_, ?_⟩, rfl⟩
    · simpa using ⟨hbefore, hrest⟩
    · simpa using hne
    · simpa using hrun

theorem begun_none (done : List Char) (hc : isTokenChar c = false) : Begun (done ++ [c]) none := by
  simpa [Begun] using hc

theorem byteLength_snoc (done : List Char) (c : Char) :
    byteLength (done ++ [c]) = byteLength done + c.utf8Size := by
  rw [byteLength_append]
  simp [byteLength]

/-- Every token that is read is a maximal run, starting no earlier than the one being read. -/
theorem scanTokens_isTokenOf (hbegun : Begun done begun) :
    ∀ token ∈ scanTokens begun (byteLength done) rest, IsTokenOf (done ++ rest) token := by
  induction rest generalizing done begun with
  | nil =>
    intro token htoken
    exact (hbegun.close (by simp) token htoken).1
  | cons c rest ih =>
    intro token htoken
    rw [scanTokens] at htoken
    rw [← byteLength_snoc] at htoken
    have happend : done ++ c :: rest = done ++ [c] ++ rest := by simp
    split_ifs at htoken with hc
    · rw [happend]
      exact ih (hbegun.extend hc) token htoken
    · have hseparator : isTokenChar c = false := Bool.eq_false_iff.mpr hc
      rcases List.mem_append.mp htoken with hin | hin
      · exact (hbegun.close (by simpa using hseparator) token hin).1
      · rw [happend]
        exact ih (begun_none done hseparator) token hin

theorem scanTokens_le_start : ∀ token ∈ scanTokens none (byteLength done) rest,
    byteLength done ≤ token.start := by
  have hall : ∀ (begun : Option (ℕ × List Char)) (index low : ℕ), low ≤ index →
      (∀ read ∈ begun, low ≤ read.1) → ∀ token ∈ scanTokens begun index rest,
        low ≤ token.start := by
    induction rest with
    | nil =>
      intro begun index low hindex hbegun token htoken
      cases begun with
      | none => cases htoken
      | some read =>
        rw [scanTokens, closeToken, List.mem_singleton] at htoken
        rw [htoken]
        exact hbegun read rfl
    | cons c rest ih =>
      intro begun index low hindex hbegun token htoken
      rw [scanTokens] at htoken
      split_ifs at htoken with hc
      · apply ih _ _ low (by omega) _ token htoken
        intro read hread
        cases hread
        cases begun with
        | none => exact hindex
        | some read => exact hbegun read rfl
      · rcases List.mem_append.mp htoken with hin | hin
        · cases begun with
          | none => cases hin
          | some read =>
            rw [closeToken, List.mem_singleton] at hin
            rw [hin]
            exact hbegun read rfl
        · exact ih none _ low (by omega) (by simp) token hin
  exact hall none _ _ le_rfl (by simp)

theorem scanTokens_pairwise (hbegun : Begun done begun) :
    (scanTokens begun (byteLength done) rest).Pairwise fun a b => a.stop ≤ b.start := by
  induction rest generalizing done begun with
  | nil =>
    rw [scanTokens]
    cases begun <;> simp [closeToken]
  | cons c rest ih =>
    rw [scanTokens, ← byteLength_snoc]
    split_ifs with hc
    · exact ih (hbegun.extend hc)
    · have hseparator : isTokenChar c = false := Bool.eq_false_iff.mpr hc
      rw [List.pairwise_append]
      refine ⟨?_, ih (begun_none done hseparator), ?_⟩
      · cases begun <;> simp [closeToken]
      · intro token htoken other hother
        have hstop := (@Begun.close done (c :: rest) begun hbegun (by simpa using hseparator)
          token htoken).2
        have hstart := scanTokens_le_start other hother
        rw [byteLength_snoc] at hstart
        omega

theorem scanTokens_run {word : List Char} (hword : ∀ c ∈ word, isTokenChar c = true)
    (start index : ℕ) (run : List Char) : scanTokens (some (start, run)) index (word ++ rest) =
      scanTokens (some (start, run ++ word)) (index + byteLength word) rest := by
  induction word generalizing index run with
  | nil => simp
  | cons c word ih =>
    obtain ⟨hc, hrest⟩ := List.forall_mem_cons.mp hword
    rw [List.cons_append, scanTokens, if_pos hc, extendToken, ih hrest, byteLength_cons]
    simp [Nat.add_assoc]

/-- A word that ends at the text's end or before a separator is read as it stands. -/
theorem word_mem_scanTokens {word : List Char} (hne : word ≠ [])
    (hword : ∀ c ∈ word, isTokenChar c = true) (hrest : ∀ c ∈ rest.head?, isTokenChar c = false)
    (index : ℕ) : ⟨String.ofList word, index, index + byteLength word⟩ ∈
      scanTokens none index (word ++ rest) := by
  obtain ⟨c, word, rfl⟩ := List.exists_cons_of_ne_nil hne
  obtain ⟨hc, hothers⟩ := List.forall_mem_cons.mp hword
  rw [List.cons_append, scanTokens, if_pos hc, extendToken, scanTokens_run hothers,
    byteLength_cons, ← Nat.add_assoc]
  cases rest with
  | nil => simp [scanTokens, closeToken]
  | cons d rest =>
    rw [scanTokens, if_neg (by simpa using hrest d rfl)]
    exact List.mem_append_left _ List.mem_cons_self

/-- The text before does not matter to what is read behind a separator. -/
theorem mem_scanTokens_append {token : Token} (front : List Char) (index : ℕ)
    (hbegun : front = [] → begun = none) (hfront : ∀ c ∈ front.getLast?, isTokenChar c = false)
    (h : token ∈ scanTokens none (index + byteLength front) rest) :
    token ∈ scanTokens begun index (front ++ rest) := by
  induction front generalizing begun index with
  | nil =>
    rw [hbegun rfl]
    simpa using h
  | cons c front ih =>
    rw [byteLength_cons, ← Nat.add_assoc] at h
    have hlast : ∀ d ∈ front.getLast?, isTokenChar d = false := by
      cases front with
      | nil => simp
      | cons d front => exact hfront
    rw [List.cons_append, scanTokens]
    split_ifs with hc
    · refine ih _ ?_ hlast h
      rintro rfl
      rw [hfront c (by simp)] at hc
      cases hc
    · exact List.mem_append_right _ (ih _ (fun _ => rfl) hlast h)

theorem toLower_eq_self {c : Char} (h : c.isUpper = false) : c.toLower = c := by
  unfold Char.toLower
  split_ifs with hupper
  · simp only [Text.isUpper_eq, decide_eq_false_iff_not] at h
    exact absurd hupper h
  · rfl

theorem isTokenChar_toLower (c : Char) : isTokenChar c.toLower = isTokenChar c := by
  have hhyphen : c.toLower = '-' ↔ c = '-' := by
    constructor
    · intro h
      have halpha : c.isAlphanum = false := by
        rw [← isAlphanum_toLower, h]
        decide
      simp only [Char.isAlphanum, Text.isAlpha_eq, Bool.or_eq_false_iff] at halpha
      rwa [toLower_eq_self halpha.1.1] at h
    · rintro rfl
      rfl
  simp only [isTokenChar, isAlphanum_toLower, hhyphen]

theorem scanTokens_toLower (begun : Option (ℕ × List Char)) (index : ℕ) (rest : List Char) :
    scanTokens (begun.map fun read => (read.1, read.2.map Char.toLower)) index
        (rest.map Char.toLower) =
      (scanTokens begun index rest).map fun token =>
        { token with text := Text.asciiLower token.text } := by
  have hclose : ∀ (begun : Option (ℕ × List Char)) (index : ℕ),
      closeToken (begun.map fun read => (read.1, read.2.map Char.toLower)) index =
        (closeToken begun index).map fun token =>
          { token with text := Text.asciiLower token.text } := by
    intro begun index
    cases begun <;> simp [closeToken, Text.asciiLower]
  induction rest generalizing begun index with
  | nil => exact hclose begun index
  | cons c rest ih =>
    rw [List.map_cons, scanTokens, scanTokens, isTokenChar_toLower, utf8Size_toLower]
    split_ifs with hc
    · rw [← ih]
      cases begun <;> simp [extendToken]
    · rw [hclose, List.map_append, ← ih]
      rfl

end Scan

section Tokens

variable {message : String} {token : Token}

theorem tokensWithSpans_isTokenOf (h : token ∈ tokensWithSpans message) :
    IsTokenOf message.toList token := by
  have hall := @scanTokens_isTokenOf [] message.toList none (by simp [Begun])
  exact hall token h

theorem mem_tokensWithSpans (h : IsTokenOf message.toList token) :
    token ∈ tokensWithSpans message := by
  obtain ⟨before, after, htext, hstart, hstop, hbefore, hafter⟩ := h.parts
  have hword := word_mem_scanTokens h.nonempty h.run hafter (byteLength before)
  rw [← byteLength_append, ← hstop, ← hstart, String.ofList_toList] at hword
  rw [tokensWithSpans, htext, List.append_assoc]
  apply mem_scanTokens_append before 0 (fun _ => rfl) hbefore
  rwa [Nat.zero_add, ← hstart]

theorem tokensWithSpans_pairwise (message : String) :
    (tokensWithSpans message).Pairwise fun a b => a.stop ≤ b.start :=
  @scanTokens_pairwise [] message.toList none (by simp [Begun])

theorem tokensWithSpans_asciiLower (message : String) :
    tokensWithSpans (Text.asciiLower message) = (tokensWithSpans message).map fun token =>
      { token with text := Text.asciiLower token.text } := by
  have hlower := scanTokens_toLower none 0 message.toList
  rw [tokensWithSpans, Text.asciiLower, String.toList_ofList]
  exact hlower

theorem IsTokenOf.start_lt_stop {text : List Char} (h : IsTokenOf text token) :
    token.start < token.stop := by
  obtain ⟨before, after, -, hstart, hstop, -⟩ := h.parts
  rw [hstart, hstop, byteLength_append]
  cases hrun : token.text.toList with
  | nil => exact absurd hrun h.nonempty
  | cons c rest =>
    have hpos := c.utf8Size_pos
    rw [byteLength_cons]
    omega

theorem IsTokenOf.stop_le {text : List Char} (h : IsTokenOf text token) :
    token.stop ≤ byteLength text := by
  obtain ⟨before, after, htext, -, hstop, -⟩ := h.parts
  rw [hstop, htext, byteLength_append _ after]
  omega

end Tokens

end FineractReports
