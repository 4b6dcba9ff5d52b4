import FineractReports.Assistant.MessageFacts
import FineractReports.Assistant.VerbatimEntities
import Mathlib.Data.List.DropRight

/-!
# The numbers of a message

Three readers look for numbers in a message: the quantity in the words of its lowered text, the
period in its tokens, the amount in its characters. A number word of the lowered text is a token
of the message, so the readers can be compared token by token: the quantity is the first number
from 1 to 100 that has no word about days near it.
-/

namespace FineractReports.Extraction

open FineractReports.Utf8

/-! ### One meaning for a number -/

/-- The number from 1 to 100 that a word spells. -/
def countOf (word : String) : Option ℤ :=
  (Text.parseI64 word).filter fun value => decide (1 ≤ value ∧ value ≤ 100)

def quantityValue (quantity : Option Quantity) : Option ℤ :=
  (quantity.bind quantityParts).map Prod.snd

/-- The phrase of the period that was resolved, if one was. -/
def phraseSpanOf (resolved : Except TemporalError (Option ResolvedTemporal)) : Option (ℕ × ℕ) :=
  (resolved.toOption.bind id).map fun resolved => resolved.provenance.phraseSpan

/-- Where the digits of the transaction amount stand. -/
def amountSpan (message : String) : Option (ℕ × ℕ) := do
  let digits ← extractTransactionAmount message
  let lower := message.toList.map Char.toLower
  let after ← (AMOUNT_ANCHORS.filterMap (endOfFirst lower)).min?
  let start := byteLength (message.toList.take after) +
    byteLength ((message.toList.drop after).takeWhile fun c => !c.isDigit)
  pure (start, start + byteLength digits.toList)

def Outside (span : Option (ℕ × ℕ)) (token : Token) : Prop :=
  ∀ bounds ∈ span, token.stop ≤ bounds.1 ∨ bounds.2 ≤ token.start

instance (span : Option (ℕ × ℕ)) (token : Token) : Decidable (Outside span token) :=
  inferInstanceAs (Decidable (∀ bounds ∈ span, _))

/-- The numbers from 1 to 100 outside the phrase and the amount, one for each token. -/
def outsideCounts (message : String) (phrase amount : Option (ℕ × ℕ)) : List ℤ :=
  ((tokensWithSpans message).filter fun token =>
    Outside phrase token ∧ Outside amount token).filterMap fun token => countOf token.text

/-- The quantity is an integer token outside the phrase and the amount, and the only number
outside them is the quantity. -/
structure OneMeaning (message : String) (phrase amount : Option (ℕ × ℕ))
    (quantity : Option Quantity) : Prop where
  outside : ∀ value ∈ quantityValue quantity, ∃ token ∈ tokensWithSpans message,
    Outside phrase token ∧ Outside amount token ∧ Text.parseI64 token.text = some value
  only : ∀ value, outsideCounts message phrase amount = [value] →
    quantityValue quantity = some value

/-! ### Numbers without a word about days near them -/

section Free

variable (tables : UnicodeCase) (message : String)

def loweredBefore (token : Token) : List Char :=
  tables.lowerPart [] (spanBetween message 0 token.start)
    (spanBetween message token.start (byteLength message.toList))

def loweredAfter (token : Token) : List Char :=
  tables.lowerFrom (spanBetween message 0 token.stop)
    (spanBetween message token.stop (byteLength message.toList))

/-- A token with the two words of the lowered text around it on either side. -/
def wordsAround (token : Token) : String :=
  " ".intercalate ((words (String.ofList (loweredBefore tables message token))).rtake 2 ++
    token.text :: (words (String.ofList (loweredAfter tables message token))).take 2)

/-- No word about days stands near the token, and it is a word of the lowered text as well:
no letter from beyond ASCII that is lowered to an ASCII letter touches it. -/
def isFree (token : Token) : Bool :=
  (loweredBefore tables message token).getLast?.all (fun c => !isTokenChar c) = true ∧
    (loweredAfter tables message token).head?.all (fun c => !isTokenChar c) = true ∧
    Text.contains (wordsAround tables message token) "days" = false ∧
    Text.contains (wordsAround tables message token) "hari" = false

def isFreeCount (token : Token) : Bool :=
  (countOf token.text).isSome = true ∧ isFree tables message token = true

/-- The first free number stands outside the phrase and the amount, or is a number that does;
where one number alone stands outside them, some number is free. -/
structure NumbersApart (phrase amount : Option (ℕ × ℕ)) : Prop where
  first : ∀ token, (tokensWithSpans message).find? (isFreeCount tables message) = some token →
    (Outside phrase token ∧ Outside amount token) ∨ ∃ other ∈ tokensWithSpans message,
      Outside phrase other ∧ Outside amount other ∧ countOf other.text = countOf token.text
  only : ∀ value, outsideCounts message phrase amount = [value] →
    ∃ token ∈ tokensWithSpans message, isFreeCount tables message token = true

end Free

/-! ### Numerals and quantities -/

section Quantities

variable {word : String} {value : ℤ}

/-- A positive numeral of token characters has no sign. -/
theorem isDigit_of_parseI64 (h : Text.parseI64 word = some value) (hpositive : 1 ≤ value)
    (hrun : ∀ c ∈ word.toList, isTokenChar c = true) : ∀ c ∈ word.toList, c.isDigit = true := by
  have hdigits : ∀ {digits : List Char} {number : ℕ}, Text.parseDigits digits = some number →
      ∀ c ∈ digits, c.isDigit = true := by
    intro digits number hparse
    rw [Text.parseDigits] at hparse
    split_ifs at hparse with hall
    exact List.all_eq_true.mp hall.2
  rw [Text.parseI64, Option.filter_eq_some_iff] at h
  obtain ⟨hsigned, -⟩ := h
  split at hsigned
  · obtain ⟨signed, hsigned, hnegative⟩ := Option.map_eq_some_iff.mp hsigned
    obtain ⟨number, -, hnumber⟩ := Option.bind_eq_some_iff.mp hsigned
    have hnatural : (number : ℤ) = signed := Option.some.inj hnumber
    omega
  · rename_i digits hword
    have hplus := hrun '+' (by rw [hword]; exact List.mem_cons_self)
    exact absurd hplus (by decide)
  · obtain ⟨signed, hsigned, -⟩ := Option.map_eq_some_iff.mp hsigned
    obtain ⟨number, hparse, -⟩ := Option.bind_eq_some_iff.mp hsigned
    exact hdigits hparse

theorem countOf_eq_some : countOf word = some value ↔
    Text.parseI64 word = some value ∧ 1 ≤ value ∧ value ≤ 100 := by
  rw [countOf, Option.filter_eq_some_iff, decide_eq_true_eq]

/-- The number of the quantity that a word is read as. -/
theorem quantityValue_quantityAt (message : String) (words : List String) (index : ℕ) :
    quantityValue (quantityAt message words index) = some value ↔
      ∃ word, words[index]? = some word ∧ countOf word = some value ∧
        Text.contains (nearby words index) "days" = false ∧
        Text.contains (nearby words index) "hari" = false := by
  unfold quantityAt
  cases words[index]? with
  | none => simp [quantityValue]
  | some word =>
    simp only [Option.bind_eq_bind, Option.bind_some, Option.some.injEq, exists_eq_left',
      countOf_eq_some]
    cases Text.parseI64 word with
    | none => simp [quantityValue]
    | some number =>
      simp only [Option.bind_some, Option.some.injEq]
      split_ifs with hrefused hranking <;>
        simp only [quantityValue, Option.bind_none, Option.bind_some, Option.map_none,
          Option.map_some, quantityParts, Option.some.injEq, reduceCtorEq, false_iff] <;>
        grind

theorem quantityValue_extractQuantity (message : String) (words : List String) :
    quantityValue (extractQuantity message words) =
      (List.range words.length).findSome? fun index =>
        quantityValue (quantityAt message words index) := by
  have hvalue : ∀ index quantity, quantityAt message words index = some quantity →
      ∃ value, quantityValue (some quantity) = some value := by
    intro index quantity hquantity
    unfold quantityAt at hquantity
    simp only [Option.bind_eq_bind, Option.bind_eq_some_iff] at hquantity
    obtain ⟨word, -, value, -, hquantity⟩ := hquantity
    split_ifs at hquantity <;> cases hquantity <;> exact ⟨value, rfl⟩
  rw [extractQuantity]
  induction List.range words.length with
  | nil => rfl
  | cons index rest ih =>
    rw [List.findSome?_cons, List.findSome?_cons]
    cases hquantity : quantityAt message words index with
    | none => exact ih
    | some quantity =>
      obtain ⟨value, hsome⟩ := hvalue index quantity hquantity
      rw [hsome]

theorem nearby_append (before after : List String) (word : String) :
    nearby (before ++ word :: after) before.length =
      " ".intercalate (before.rtake 2 ++ word :: after.take 2) := by
  have htake : (before ++ word :: after).take (before.length + 3) =
      before ++ word :: after.take 2 := by
    rw [List.take_length_add_append, List.take_succ_cons]
  rw [nearby, htake, List.drop_append_of_le_length (by omega), List.rtake]

end Quantities

/-! ### Number words of the lowered text and tokens of the message -/

section Correspondence

variable {tables : UnicodeCase} {message : String} {token : Token}

/-- Between separators, as the words of a text are. -/
abbrev StandsAsWord (before word after : List Char) : Prop :=
  Text.Stands (fun c => !isTokenChar c) before word after

theorem words_append {before word after : List Char} (h : StandsAsWord before word after) :
    words (String.ofList (before ++ word ++ after)) =
      words (String.ofList before) ++ String.ofList word :: words (String.ofList after) := by
  unfold words Text.tokens
  rw [String.toList_ofList, h.tokenChars, List.map_append, List.map_cons, String.toList_ofList,
    String.toList_ofList]

/-- The lowered text around a token, by where the token stands. -/
theorem lowered_around (tables : UnicodeCase) {before after : List Char}
    (htext : message.toList = before ++ token.text.toList ++ after)
    (hstart : token.start = byteLength before)
    (hstop : token.stop = byteLength (before ++ token.text.toList)) :
    loweredBefore tables message token = tables.lowerPart [] before (token.text.toList ++ after) ∧
      loweredAfter tables message token =
        tables.lowerFrom (before ++ token.text.toList) after := by
  have hmessage : message.toList = before ++ (token.text.toList ++ after) := by
    rw [htext, List.append_assoc]
  constructor
  · have hfront : spanBetween message 0 token.start = before := by
      rw [hstart]
      exact @spanBetween_append message [] before (token.text.toList ++ after) hmessage
    have hrest : spanBetween message token.start (byteLength message.toList) =
        token.text.toList ++ after := by
      have hspan := @spanBetween_append message before (token.text.toList ++ after) []
        (by rw [List.append_nil, hmessage])
      rwa [← hmessage, ← hstart] at hspan
    rw [loweredBefore, hfront, hrest]
  · have hfront : spanBetween message 0 token.stop = before ++ token.text.toList := by
      rw [hstop]
      exact @spanBetween_append message [] (before ++ token.text.toList) after htext
    have hrest : spanBetween message token.stop (byteLength message.toList) = after := by
      have hspan := @spanBetween_append message (before ++ token.text.toList) after []
        (by rw [List.append_nil, htext])
      rwa [← htext, ← hstop] at hspan
    rw [loweredAfter, hfront, hrest]

theorem lowerFrom_split (htoken : IsTokenOf message.toList token)
    (hdigits : ∀ c ∈ token.text.toList, c.isDigit = true) :
    tables.lowerFrom [] message.toList = loweredBefore tables message token ++
      token.text.toList ++ loweredAfter tables message token := by
  obtain ⟨before, after, htext, hstart, hstop, -⟩ := htoken.parts
  obtain ⟨hbefore, hafter⟩ := lowered_around tables htext hstart hstop
  rw [hbefore, hafter, htext, List.append_assoc, UnicodeCase.lowerFrom_append,
    UnicodeCase.lowerFrom_append, UnicodeCase.lowerPart_digits hdigits]
  simp

/-- The number of words of the lowered text before a token. -/
def readIndex (tables : UnicodeCase) (message : String) (token : Token) : ℕ :=
  (words (String.ofList (loweredBefore tables message token))).length

/-- A number that stands as a word in the lowered text is the word at its place. -/
theorem words_toLowercase (htoken : IsTokenOf message.toList token)
    (hdigits : ∀ c ∈ token.text.toList, c.isDigit = true)
    (hstands : StandsAsWord (loweredBefore tables message token) token.text.toList
      (loweredAfter tables message token)) :
    (words (tables.toLowercase message))[readIndex tables message token]? = some token.text ∧
      nearby (words (tables.toLowercase message)) (readIndex tables message token) =
        wordsAround tables message token := by
  have hwords : words (tables.toLowercase message) =
      words (String.ofList (loweredBefore tables message token)) ++
        token.text :: words (String.ofList (loweredAfter tables message token)) := by
    rw [UnicodeCase.toLowercase, lowerFrom_split htoken hdigits, words_append hstands,
      String.ofList_toList]
  rw [hwords, readIndex, nearby_append, wordsAround]
  exact ⟨by simp, rfl⟩

theorem isFreeCount_iff : isFreeCount tables message token = true ↔
    (∃ value, countOf token.text = some value) ∧
      (∀ c ∈ (loweredBefore tables message token).getLast?, isTokenChar c = false) ∧
      (∀ c ∈ (loweredAfter tables message token).head?, isTokenChar c = false) ∧
      Text.contains (wordsAround tables message token) "days" = false ∧
      Text.contains (wordsAround tables message token) "hari" = false := by
  have hall : ∀ edge : Option Char, edge.all (fun c => !isTokenChar c) = true ↔
      ∀ c ∈ edge, isTokenChar c = false := by
    intro edge
    cases edge <;> simp
  simp only [isFreeCount, isFree, decide_eq_true_eq]
  rw [hall, hall, Option.isSome_iff_exists]

theorem isDigit_of_isFreeCount (htoken : IsTokenOf message.toList token)
    (h : isFreeCount tables message token = true) :
    ∀ c ∈ token.text.toList, c.isDigit = true := by
  obtain ⟨⟨value, hvalue⟩, -⟩ := isFreeCount_iff.mp h
  obtain ⟨hparse, hpositive, -⟩ := countOf_eq_some.mp hvalue
  exact isDigit_of_parseI64 hparse hpositive htoken.run

theorem standsAsWord_of_isFreeCount (htoken : IsTokenOf message.toList token)
    (h : isFreeCount tables message token = true) :
    StandsAsWord (loweredBefore tables message token) token.text.toList
      (loweredAfter tables message token) := by
  obtain ⟨-, hfront, hback, -⟩ := isFreeCount_iff.mp h
  refine ⟨htoken.nonempty, fun c hc => ?_, fun c hc => ?_, fun c hc => ?_⟩
  · simpa using htoken.run c hc
  · simpa using hfront c hc
  · simpa using hback c hc

/-- A free number of the message is read at its place among the words. -/
theorem quantityValue_readIndex (htoken : IsTokenOf message.toList token)
    (h : isFreeCount tables message token = true) :
    quantityValue (quantityAt (tables.toLowercase message) (words (tables.toLowercase message))
      (readIndex tables message token)) = countOf token.text := by
  obtain ⟨hword, hnear⟩ := words_toLowercase htoken (isDigit_of_isFreeCount htoken h)
    (standsAsWord_of_isFreeCount htoken h)
  obtain ⟨⟨value, hvalue⟩, -, -, hdays, hhari⟩ := isFreeCount_iff.mp h
  rw [hvalue, quantityValue_quantityAt, hnear]
  exact ⟨token.text, hword, hvalue, hdays, hhari⟩

/-- What ends with a token character is lowered to a text that does. -/
theorem separated_of_lowerPart {first rest : List Char}
    (h : ∀ c ∈ (tables.lowerPart [] first rest).getLast?, isTokenChar c = false) :
    ∀ c ∈ first.getLast?, isTokenChar c = false := by
  intro c hc
  obtain ⟨front, rfl⟩ := List.getLast?_eq_some_iff.mp hc
  rw [← Bool.not_eq_true]
  intro htoken
  have hend : tables.lowerPart ([] ++ front) [c] rest = [c.toLower] :=
    UnicodeCase.lowerPart_ascii (by simpa using (isTokenChar_ascii htoken).1)
  rw [UnicodeCase.lowerPart_append, hend] at h
  have hlower := h c.toLower (by simp)
  rw [isTokenChar_toLower, htoken] at hlower
  cases hlower

theorem separated_of_lowerFrom {before last : List Char}
    (h : ∀ c ∈ (tables.lowerFrom before last).head?, isTokenChar c = false) :
    ∀ c ∈ last.head?, isTokenChar c = false := by
  intro c hc
  obtain ⟨rest, rfl⟩ := List.head?_eq_some_iff.mp hc
  rw [← Bool.not_eq_true]
  intro htoken
  rw [UnicodeCase.lowerFrom, UnicodeCase.lowerChar_ascii (isTokenChar_ascii htoken).1] at h
  have hlower := h c.toLower rfl
  rw [isTokenChar_toLower, htoken] at hlower
  cases hlower

/-- A number word of the lowered text is a token of the message, for what touches it there
touches it here. -/
theorem exists_token_of_stands {front digits back : List Char}
    (hall : ∀ c ∈ digits, c.isDigit = true) (hstands : StandsAsWord front digits back)
    (h : tables.lowerFrom [] message.toList = front ++ digits ++ back) :
    ∃ token, IsTokenOf message.toList token ∧ token.text = String.ofList digits ∧
      loweredBefore tables message token = front ∧ loweredAfter tables message token = back := by
  obtain ⟨first, last, hmessage, rfl, rfl⟩ := UnicodeCase.exists_digits hstands.nonempty hall h
  refine ⟨⟨String.ofList digits, byteLength first, byteLength (first ++ digits)⟩, ?_, rfl, ?_⟩
  · refine ⟨⟨first, last, ?_, rfl, ?_, ?_, ?_⟩, ?_, ?_⟩
    · rw [String.toList_ofList, hmessage]
    · rw [String.toList_ofList]
    · exact separated_of_lowerPart fun c hc => by simpa using hstands.front c hc
    · exact separated_of_lowerFrom fun c hc => by simpa using hstands.back c hc
    · simpa using hstands.nonempty
    · intro c hc
      rw [String.toList_ofList] at hc
      simpa using hstands.run c hc
  · have haround := @lowered_around message ⟨String.ofList digits, byteLength first,
      byteLength (first ++ digits)⟩ tables first last (by rw [String.toList_ofList, hmessage])
      rfl (by rw [String.toList_ofList])
    rwa [String.toList_ofList] at haround

/-- Every word that is read as a quantity is a free number of the message. -/
theorem exists_token_of_quantityAt {index : ℕ} {value : ℤ}
    (h : quantityValue (quantityAt (tables.toLowercase message)
      (words (tables.toLowercase message)) index) = some value) :
    ∃ token ∈ tokensWithSpans message, isFreeCount tables message token = true ∧
      readIndex tables message token = index := by
  obtain ⟨word, hword, hvalue, hdays, hhari⟩ := (quantityValue_quantityAt _ _ _).mp h
  rw [words, UnicodeCase.toLowercase, Text.tokens, List.getElem?_map, Option.map_eq_some_iff,
    String.toList_ofList] at hword
  obtain ⟨digits, hdigits, rfl⟩ := hword
  obtain ⟨front, back, htext, hstands, hlength⟩ := Text.exists_stands hdigits
  have hall : ∀ c ∈ digits, c.isDigit = true := by
    obtain ⟨hparse, hpositive, -⟩ := countOf_eq_some.mp hvalue
    have hnumeral := isDigit_of_parseI64 hparse hpositive
    rw [String.toList_ofList] at hnumeral
    exact hnumeral fun c hc => by simpa using hstands.run c hc
  obtain ⟨token, htoken, hdigitsText, rfl, rfl⟩ := exists_token_of_stands hall hstands htext
  have hindex : readIndex tables message token = index := by
    rw [readIndex, words, Text.tokens, List.length_map, String.toList_ofList]
    exact hlength
  have hchars : token.text.toList = digits := by rw [hdigitsText, String.toList_ofList]
  rw [← hchars] at hall hstands
  obtain ⟨-, hnear⟩ := words_toLowercase htoken hall hstands
  rw [← hindex, hnear] at hdays hhari
  refine ⟨token, mem_tokensWithSpans htoken, ?_, hindex⟩
  refine isFreeCount_iff.mpr ⟨⟨value, ?_⟩, ?_, ?_, hdays, hhari⟩
  · rw [hdigitsText, hvalue]
  · exact fun c hc => by simpa using hstands.front c hc
  · exact fun c hc => by simpa using hstands.back c hc

/-- Free numbers are read in the order of the message. -/
theorem readIndex_lt {later : Token} (htoken : IsTokenOf message.toList token)
    (hlater : IsTokenOf message.toList later) (hle : token.stop ≤ later.start)
    (h : isFreeCount tables message token = true) :
    readIndex tables message token < readIndex tables message later := by
  have hstands := standsAsWord_of_isFreeCount htoken h
  obtain ⟨before, after, htext, hstart, hstop, -⟩ := htoken.parts
  obtain ⟨front, back, hlaterText, hlaterStart, hlaterStop, -⟩ := hlater.parts
  obtain ⟨gap, rfl⟩ : ∃ gap, front = before ++ token.text.toList ++ gap := by
    apply exists_append_of_byteLength_le (htext.symm.trans (hlaterText.trans
      (List.append_assoc _ _ _)))
    omega
  have hafter : after = gap ++ (later.text.toList ++ back) := by
    rw [hlaterText] at htext
    simpa using htext.symm
  obtain ⟨hbefore, hbehind⟩ := lowered_around tables htext hstart hstop
  obtain ⟨hlaterBefore, -⟩ := lowered_around tables hlaterText hlaterStart hlaterStop
  rw [hbefore, hbehind, hafter, UnicodeCase.lowerFrom_append] at hstands
  -- the lowered text before the later token begins with that before the first and the first
  generalize hrest : tables.lowerPart (before ++ token.text.toList) gap
    (later.text.toList ++ back) = rest at hstands
  have hsplit : loweredBefore tables message later = loweredBefore tables message token ++
      token.text.toList ++ rest := by
    rw [hlaterBefore, hbefore, hafter, List.append_assoc, UnicodeCase.lowerPart_append,
      UnicodeCase.lowerPart_append, UnicodeCase.lowerPart_digits (isDigit_of_isFreeCount htoken h),
      List.nil_append, hrest]
    simp
  have hword : StandsAsWord (loweredBefore tables message token) token.text.toList rest := by
    rw [hbefore, hafter]
    refine { hstands with back := fun c hc => hstands.back c ?_ }
    rw [List.head?_append, Option.mem_def.mp hc]
    rfl
  rw [readIndex, readIndex, hsplit, words_append hword, List.length_append, List.length_cons]
  omega

theorem findSome?_range {α : Type} {f : ℕ → Option α} {count index : ℕ} {value : α}
    (hindex : index < count) (hvalue : f index = some value)
    (hearlier : ∀ earlier < index, f earlier = none) :
    (List.range count).findSome? f = some value := by
  rw [List.findSome?_eq_some_iff]
  refine ⟨List.range index, index, List.range' (index + 1) (count - index - 1), ?_, hvalue, ?_⟩
  · rw [List.range_eq_range', List.range_eq_range', ← List.range'_succ]
    have hjoin := @List.range'_append 0 index (count - index) 1
    rw [Nat.one_mul, Nat.zero_add, show index + (count - index) = count by omega] at hjoin
    rw [← hjoin]
    congr 2
    omega
  · exact fun earlier hmem => hearlier earlier (List.mem_range.mp hmem)

/-- Nothing is read as a quantity before the first free number. -/
theorem quantityValue_before {index : ℕ}
    (hfind : (tokensWithSpans message).find? (isFreeCount tables message) = some token)
    (hindex : index < readIndex tables message token) :
    quantityValue (quantityAt (tables.toLowercase message) (words (tables.toLowercase message))
      index) = none := by
  obtain ⟨hfree, passed, rest, htokens, hpassed⟩ := List.find?_eq_some_iff_append.mp hfind
  rw [Option.eq_none_iff_forall_ne_some]
  intro value hvalue
  obtain ⟨found, hfound, hfoundFree, hfoundIndex⟩ := exists_token_of_quantityAt hvalue
  have htoken := tokensWithSpans_isTokenOf (List.mem_of_find?_eq_some hfind)
  have hfoundToken := tokensWithSpans_isTokenOf hfound
  have hordered := tokensWithSpans_pairwise message
  rw [htokens, List.pairwise_append, List.pairwise_cons] at hordered
  rw [htokens] at hfound
  rcases List.mem_append.mp hfound with hin | hin
  · exact absurd hfoundFree (by simpa using hpassed found hin)
  rcases List.mem_cons.mp hin with rfl | hin
  · omega
  · have hafter := readIndex_lt htoken hfoundToken (hordered.2.1.1 found hin) hfree
    omega

/-- The quantity is the first free number of the message. -/
theorem quantityValue_eq_firstFree (tables : UnicodeCase) (message : String) :
    quantityValue (extractQuantity (tables.toLowercase message)
      (words (tables.toLowercase message))) =
        ((tokensWithSpans message).find? (isFreeCount tables message)).bind fun token =>
          countOf token.text := by
  rw [quantityValue_extractQuantity]
  cases hfind : (tokensWithSpans message).find? (isFreeCount tables message) with
  | none =>
    rw [Option.bind_none, List.findSome?_eq_none_iff]
    intro index _
    rw [Option.eq_none_iff_forall_ne_some]
    intro value hvalue
    obtain ⟨token, htoken, hfree, -⟩ := exists_token_of_quantityAt hvalue
    exact List.find?_eq_none.mp hfind token htoken hfree
  | some token =>
    have hfree := List.find?_some hfind
    obtain ⟨⟨value, hvalue⟩, -⟩ := isFreeCount_iff.mp hfree
    have hread := quantityValue_readIndex
      (tokensWithSpans_isTokenOf (List.mem_of_find?_eq_some hfind)) hfree
    rw [hvalue] at hread
    rw [Option.bind_some, hvalue]
    have hbound : readIndex tables message token < (words (tables.toLowercase message)).length := by
      obtain ⟨word, hword, -⟩ := (quantityValue_quantityAt _ _ _).mp hread
      exact (List.getElem?_eq_some_iff.mp hword).1
    exact @findSome?_range ℤ (fun index => quantityValue (quantityAt (tables.toLowercase message)
      (words (tables.toLowercase message)) index)) _ _ value hbound hread
      fun earlier hlt => quantityValue_before hfind hlt

end Correspondence

/-! ### The amount and the claim on whole messages -/

/-- The span holds the digits of the amount. -/
theorem amountSpan_text (message : String) :
    (amountSpan message).map (fun span => String.ofList (spanBetween message span.1 span.2)) =
      extractTransactionAmount message := by
  unfold amountSpan
  cases hamount : extractTransactionAmount message with
  | none => rfl
  | some amount =>
    unfold extractTransactionAmount at hamount
    simp only [Option.bind_eq_bind, Option.bind_eq_some_iff] at hamount
    obtain ⟨after, hafter, hamount⟩ := hamount
    split_ifs at hamount
    obtain rfl := Option.some.inj hamount
    have hsplit : message.toList = message.toList.take after ++
        (message.toList.drop after).takeWhile (fun c => !c.isDigit) ++
        (((message.toList.drop after).dropWhile fun c => !c.isDigit).takeWhile
          fun c => c.isDigit || c = '.') ++
        (((message.toList.drop after).dropWhile fun c => !c.isDigit).dropWhile
          fun c => c.isDigit || c = '.') := by
      rw [List.append_assoc _ (List.takeWhile _ (List.dropWhile _ _)),
        List.takeWhile_append_dropWhile, List.append_assoc, List.takeWhile_append_dropWhile,
        List.take_append_drop]
    have hspan := spanBetween_append hsplit
    rw [byteLength_append, byteLength_append _ (List.takeWhile _ (List.dropWhile _ _)),
      byteLength_append] at hspan
    simp [hafter, hspan]

section Claim

variable {tables : UnicodeCase} {message : String} {phrase amount : Option (ℕ × ℕ)}

theorem mem_outsideCounts {value : ℤ} : value ∈ outsideCounts message phrase amount ↔
    ∃ token ∈ tokensWithSpans message, Outside phrase token ∧ Outside amount token ∧
      countOf token.text = some value := by
  simp [outsideCounts, and_assoc]

/-- Kept apart, the first free number is one outside the phrase and the amount. -/
theorem NumbersApart.mem_outsideCounts (h : NumbersApart tables message phrase amount)
    {token : Token} {value : ℤ}
    (hfind : (tokensWithSpans message).find? (isFreeCount tables message) = some token)
    (hvalue : countOf token.text = some value) : value ∈ outsideCounts message phrase amount := by
  rw [Extraction.mem_outsideCounts]
  rcases h.first token hfind with ⟨hphrase, hamount⟩ | ⟨other, hother, hphrase, hamount, heq⟩
  · exact ⟨token, List.mem_of_find?_eq_some hfind, hphrase, hamount, hvalue⟩
  · exact ⟨other, hother, hphrase, hamount, heq.trans hvalue⟩

theorem oneMeaning_iff_numbersApart : OneMeaning message phrase amount
    (extractQuantity (tables.toLowercase message) (words (tables.toLowercase message))) ↔
      NumbersApart tables message phrase amount := by
  have hquantity := quantityValue_eq_firstFree tables message
  constructor
  · intro h
    constructor
    · intro token hfind
      obtain ⟨⟨value, hvalue⟩, -⟩ := isFreeCount_iff.mp (List.find?_some hfind)
      rw [hfind, Option.bind_some, hvalue] at hquantity
      obtain ⟨other, hother, hphrase, hamount, hparse⟩ := h.outside value hquantity
      refine Or.inr ⟨other, hother, hphrase, hamount, ?_⟩
      rw [hvalue, countOf_eq_some]
      exact ⟨hparse, (countOf_eq_some.mp hvalue).2⟩
    · intro value honly
      rw [h.only value honly, eq_comm, Option.bind_eq_some_iff] at hquantity
      obtain ⟨token, hfind, -⟩ := hquantity
      exact ⟨token, List.mem_of_find?_eq_some hfind, List.find?_some hfind⟩
  · intro h
    constructor
    · intro value hvalue
      rw [Option.mem_def, hquantity, Option.bind_eq_some_iff] at hvalue
      obtain ⟨token, hfind, hcount⟩ := hvalue
      obtain ⟨other, hother, hphrase, hamount, hcount⟩ :=
        mem_outsideCounts.mp (h.mem_outsideCounts hfind hcount)
      exact ⟨other, hother, hphrase, hamount, (countOf_eq_some.mp hcount).1⟩
    · intro value honly
      obtain ⟨free, hmem, hfree⟩ := h.only value honly
      obtain ⟨token, hfind⟩ : ∃ token,
          (tokensWithSpans message).find? (isFreeCount tables message) = some token :=
        Option.isSome_iff_exists.mp (List.find?_isSome.mpr ⟨free, hmem, hfree⟩)
      obtain ⟨⟨read, hread⟩, -⟩ := isFreeCount_iff.mp (List.find?_some hfind)
      have hin := h.mem_outsideCounts hfind hread
      rw [honly, List.mem_singleton] at hin
      rw [hquantity, hfind, Option.bind_some, hread, hin]

variable (tables) (parseDate : String → Option NaiveDate) (formatDate : NaiveDate → String)
  (message) (referenceInstant : ℤ) (businessToday : NaiveDate) (maxRangeDays : ℤ)

/-- The extraction returns, and a number of the message has one meaning. -/
def ReadsNumbersOnce : Prop :=
  ∃ resolved facts, resolveTemporal parseDate referenceInstant businessToday maxRangeDays message =
      some resolved ∧
    extractMessageFactsAt tables.toLowercase parseDate formatDate message referenceInstant
      businessToday maxRangeDays = some facts ∧
    OneMeaning message (phraseSpanOf resolved) (amountSpan message) facts.constraints.quantity

/-- The period is resolved without a panic, and its phrase and the amount are apart from the
numbers without a word about days near them. -/
def NumbersKeptApart : Prop :=
  ∃ resolved, resolveTemporal parseDate referenceInstant businessToday maxRangeDays message =
      some resolved ∧
    NumbersApart tables message (phraseSpanOf resolved) (amountSpan message)

variable {tables message parseDate formatDate referenceInstant businessToday maxRangeDays}

theorem extracted_quantity {facts : MessageFacts} (h : extractMessageFactsAt tables.toLowercase
    parseDate formatDate message referenceInstant businessToday maxRangeDays = some facts) :
    facts.constraints.quantity =
      extractQuantity (tables.toLowercase message) (words (tables.toLowercase message)) := by
  rw [extractMessageFactsAt] at h
  obtain ⟨resolved, -, rfl⟩ := Option.map_eq_some_iff.mp h
  unfold recordCandidates factsBeforeCandidates
  dsimp only

variable (tables message parseDate formatDate referenceInstant businessToday maxRangeDays)

/-- Exactly when the numbers are kept apart has each number one meaning. -/
theorem readsNumbersOnce_iff : ReadsNumbersOnce tables message parseDate formatDate
    referenceInstant businessToday maxRangeDays ↔
      NumbersKeptApart tables message parseDate referenceInstant businessToday maxRangeDays := by
  constructor
  · rintro ⟨resolved, facts, hresolved, hfacts, hmeaning⟩
    rw [extracted_quantity hfacts] at hmeaning
    exact ⟨resolved, hresolved, oneMeaning_iff_numbersApart.mp hmeaning⟩
  · rintro ⟨resolved, hresolved, hapart⟩
    obtain ⟨facts, hfacts⟩ : ∃ facts, extractMessageFactsAt tables.toLowercase parseDate formatDate
        message referenceInstant businessToday maxRangeDays = some facts := by
      rw [extractMessageFactsAt, hresolved, Option.map_some]
      exact ⟨_, rfl⟩
    refine ⟨resolved, facts, hresolved, hfacts, ?_⟩
    rw [extracted_quantity hfacts]
    exact oneMeaning_iff_numbersApart.mpr hapart

/-- The whole part of the amount is read as a limit. -/
theorem amount_read_as_limit : ¬ ReadsNumbersOnce .ascii "with latest transaction amount 12.50"
    (fun _ => none) (fun _ => "") 0 ⟨2026, 3, 11, by decide⟩ 366 := by
  have hlimit : quantityValue (extractQuantity (UnicodeCase.ascii.toLowercase
      "with latest transaction amount 12.50") (words (UnicodeCase.ascii.toLowercase
        "with latest transaction amount 12.50"))) = some 12 := by decide +kernel
  have hspelled : ∀ token ∈ tokensWithSpans "with latest transaction amount 12.50",
      Outside (amountSpan "with latest transaction amount 12.50") token →
        Text.parseI64 token.text ≠ some 12 := by decide +kernel
  rintro ⟨resolved, facts, -, hfacts, hmeaning⟩
  rw [extracted_quantity hfacts] at hmeaning
  obtain ⟨token, htoken, -, hamount, hparse⟩ := hmeaning.outside 12 hlimit
  exact hspelled token htoken hamount hparse

end Claim

end FineractReports.Extraction
