import FineractReports.Library.Pieces
import FineractReports.Library.Tokens
import FineractReports.Library.Utf8

/-!
# Stream-safe pieces of rendered markdown

The lines of an answer are gathered into blocks, closed by a blank line outside a code fence or
by the end of a fence. A block with a fence or a table row is sent whole, any other block word
by word up to a target length. The client appends what it is sent.
-/

namespace FineractReports.Job

open Text Utf8

/-- Roughly one clause, in bytes. -/
def TARGET_CHARS : ℕ := 48

def FENCE : List Char := "```".toList

/-- A line that starts a fence or ends it, after indentation. -/
def isFenceLine (line : List Char) : Bool := FENCE.isPrefixOf (line.dropWhile isWhitespace)

/-- A table row, after indentation. -/
def isTableRow (line : List Char) : Bool := ['|'].isPrefixOf (line.dropWhile isWhitespace)

/-- The loop of `split_blocks` over the lines that are left. -/
def splitBlocksFrom (current : List Char) (inFence : Bool) : List (List Char) → List (List Char)
  | [] => if current.isEmpty then [] else [current]
  | line :: rest =>
    if isFenceLine line then
      if !inFence then splitBlocksFrom (current ++ line) true rest
      else (current ++ line) :: splitBlocksFrom [] false rest
    else if !inFence && line.all isWhitespace && !current.isEmpty then
      (current ++ line) :: splitBlocksFrom [] inFence rest
    else splitBlocksFrom (current ++ line) inFence rest

def splitBlocks (markdown : List Char) : List (List Char) :=
  splitBlocksFrom [] false (splitInclusive (· = '\n') markdown)

/-- A line without its `\n` or `\r\n`. -/
def stripLineEnd (line : List Char) : List Char :=
  if line.getLast? = some '\n' then
    if line.dropLast.getLast? = some '\r' then line.dropLast.dropLast else line.dropLast
  else line

def lines (block : List Char) : List (List Char) :=
  (splitInclusive (· = '\n') block).map stripLineEnd

def isAtomic (block : List Char) : Bool :=
  containsChars FENCE block || (lines block).any isTableRow

/-- The loop of `split_prose` over the words that are left. -/
def splitProseFrom (current : List Char) : List (List Char) → List (List Char)
  | [] => if current.isEmpty then [] else [current]
  | word :: rest =>
    if byteLength (current ++ word) ≥ TARGET_CHARS then
      (current ++ word) :: splitProseFrom [] rest
    else splitProseFrom (current ++ word) rest

def splitProse (block : List Char) : List (List Char) :=
  let chunks := splitProseFrom [] (splitInclusive isWhitespace block)
  if chunks.isEmpty && !block.isEmpty then [block] else chunks

def blockChunks (block : List Char) : List (List Char) :=
  if isAtomic block then [block] else splitProse block

def chunkMarkdown (markdown : String) : List String :=
  ((splitBlocks markdown.toList).flatMap blockChunks).map String.ofList

/-! ### What the client is sent -/

/-- A region that follows `before` in the answer lies inside one chunk. -/
def InOneChunk (chunks : List (List Char)) (before region : List Char) : Prop :=
  ∃ left front back right, chunks = left ++ (front ++ region ++ back) :: right ∧
    left.flatten ++ front = before

/-- Every fence that the lines open is closed in them. -/
def OutsideFence (before : List (List Char)) : Prop := Even (before.countP isFenceLine)

/-- The lines from a fence line to the next one. -/
def FenceToFence (region : List (List Char)) : Prop :=
  ∃ opening inner closing, region = opening :: inner ++ [closing] ∧ isFenceLine opening = true ∧
    (∀ line ∈ inner, isFenceLine line = false) ∧ isFenceLine closing = true

/-- The lines of a fence, from the one that opens it to the one that closes it. -/
structure IsFence (before region : List (List Char)) : Prop where
  outside : OutsideFence before
  bounds : FenceToFence region

/-- Table rows outside a fence. -/
structure IsTable (before region : List (List Char)) : Prop where
  outside : OutsideFence before
  inhabited : region ≠ []
  rows : ∀ line ∈ region, isTableRow line = true

/-- The chunks are the answer, cut between words and outside of tables and fences. -/
structure StreamsSafely (markdown : List Char) (chunks : List (List Char)) : Prop where
  lossless : chunks.flatten = markdown
  inhabited : [] ∉ chunks
  words : ∀ left right, chunks = left ++ right → ∀ c ∈ left.flatten.getLast?,
    ∀ d ∈ right.flatten.head?, isWhitespace c = true ∨ isWhitespace d = true
  tables : ∀ before region after, splitInclusive (· = '\n') markdown = before ++ region ++ after →
    IsTable before region → InOneChunk chunks before.flatten region.flatten
  fences : ∀ before region after, splitInclusive (· = '\n') markdown = before ++ region ++ after →
    IsFence before region → InOneChunk chunks before.flatten region.flatten

/-! ### The loops gather pieces -/

/-- The fence state behind a line. -/
def toggle (inFence : Bool) (line : List Char) : Bool :=
  if isFenceLine line then !inFence else inFence

/-- The lines that close a block. -/
def closesBlock (inFence : Bool) (current : List (List Char)) (line : List Char) : Bool :=
  if isFenceLine line then inFence
  else !inFence && line.all isWhitespace && !current.isEmpty

/-- The blocks as lists of lines. -/
def blockLines (markdown : List Char) : List (List (List Char)) :=
  gather toggle closesBlock false [] (splitInclusive (· = '\n') markdown)

/-- The chunks of a prose block as lists of words. -/
def proseWords (block : List Char) : List (List (List Char)) :=
  gather (fun _ _ => ()) (fun _ current word => TARGET_CHARS ≤ byteLength (current.flatten ++ word))
    () [] (splitInclusive isWhitespace block)

section Loops

variable {current pieces : List (List Char)} {inFence : Bool} {markdown block : List Char}

theorem isEmpty_flatten (h : [] ∉ pieces) : pieces.flatten.isEmpty = pieces.isEmpty := by
  cases pieces with
  | nil => rfl
  | cons piece pieces =>
    have hne : piece ≠ [] := fun hnil => h (by simp [hnil])
    simp [hne]

theorem splitBlocksFrom_eq (hcurrent : [] ∉ current) (hpieces : [] ∉ pieces) :
    splitBlocksFrom current.flatten inFence pieces =
      (gather toggle closesBlock inFence current pieces).map List.flatten := by
  induction pieces generalizing current inFence with
  | nil =>
    rw [splitBlocksFrom, gather, isEmpty_flatten hcurrent]
    split_ifs <;> rfl
  | cons line rest ih =>
    rw [List.mem_cons, not_or] at hpieces
    have hadded : [] ∉ current ++ [line] := by
      rw [List.mem_append, List.mem_singleton]
      exact not_or.mpr ⟨hcurrent, hpieces.1⟩
    have hnext := fun state => @ih (current ++ [line]) state hadded hpieces.2
    have hfresh := fun state => @ih [] state List.not_mem_nil hpieces.2
    rw [List.flatten_concat] at hnext
    rw [List.flatten_nil] at hfresh
    rw [splitBlocksFrom, gather, isEmpty_flatten hcurrent]
    by_cases hfence : isFenceLine line = true
    · have htoggle : toggle inFence line = !inFence := if_pos hfence
      have hcloses : closesBlock inFence current line = inFence := if_pos hfence
      rw [if_pos hfence, htoggle, hcloses]
      cases inFence with
      | false => exact hnext true
      | true => simp [hfresh]
    · have htoggle : toggle inFence line = inFence := if_neg hfence
      have hcloses : closesBlock inFence current line =
          (!inFence && line.all isWhitespace && !current.isEmpty) := if_neg hfence
      rw [if_neg hfence, htoggle, hcloses]
      split_ifs with hblank
      · rw [List.map_cons, List.flatten_concat, hfresh]
      · exact hnext inFence

theorem splitBlocks_eq : splitBlocks markdown = (blockLines markdown).map List.flatten :=
  @splitBlocksFrom_eq [] _ false List.not_mem_nil (cutBehind_splitInclusive markdown).ne_nil

theorem splitProseFrom_eq (hcurrent : [] ∉ current) (hpieces : [] ∉ pieces) :
    splitProseFrom current.flatten pieces = (gather (fun _ _ => ())
      (fun _ current word => TARGET_CHARS ≤ byteLength (current.flatten ++ word)) () current
      pieces).map List.flatten := by
  induction pieces generalizing current with
  | nil =>
    rw [splitProseFrom, gather, isEmpty_flatten hcurrent]
    split_ifs <;> rfl
  | cons word rest ih =>
    rw [List.mem_cons, not_or] at hpieces
    have hadded : [] ∉ current ++ [word] := by
      rw [List.mem_append, List.mem_singleton]
      exact not_or.mpr ⟨hcurrent, hpieces.1⟩
    have hnext := ih hadded hpieces.2
    have hfresh := ih List.not_mem_nil hpieces.2
    rw [List.flatten_concat] at hnext
    rw [List.flatten_nil] at hfresh
    rw [splitProseFrom, gather]
    by_cases hlong : byteLength (current.flatten ++ word) ≥ TARGET_CHARS
    · rw [if_pos hlong, if_pos (decide_eq_true hlong), List.map_cons, List.flatten_concat, hfresh]
    · rw [if_neg hlong, if_neg (by simpa using hlong), hnext]

/-- The fallback of the source is never taken. -/
theorem splitProse_eq : splitProse block = (proseWords block).map List.flatten := by
  have hfrom : splitProseFrom [] (splitInclusive isWhitespace block) =
      (proseWords block).map List.flatten :=
    @splitProseFrom_eq [] _ List.not_mem_nil (cutBehind_splitInclusive block).ne_nil
  unfold splitProse
  rw [hfrom]
  apply if_neg
  intro hfallback
  rw [Bool.and_eq_true, List.isEmpty_iff, List.map_eq_nil_iff] at hfallback
  have hflat : (proseWords block).flatten = splitInclusive isWhitespace block := flatten_gather
  rw [hfallback.1, List.flatten_nil] at hflat
  have hblock := flatten_splitInclusive (p := isWhitespace) block
  rw [← hflat, List.flatten_nil] at hblock
  rw [← hblock] at hfallback
  exact absurd hfallback.2 (by simp)

end Loops

/-! ### Pieces of a block -/

section Pieces

variable {markdown block : List Char}

theorem flatten_ne_nil {groups : List (List (List Char))} (hgroups : [] ∉ groups)
    (hpieces : [] ∉ groups.flatten) : [] ∉ groups.map List.flatten := by
  intro hmem
  obtain ⟨group, hgroup, hflat⟩ := List.mem_map.mp hmem
  cases group with
  | nil => exact hgroups hgroup
  | cons piece group =>
    have hpiece : piece = [] := (List.append_eq_nil_iff.mp hflat).1
    exact hpieces (List.mem_flatten.mpr ⟨piece :: group, hgroup, by simp [hpiece]⟩)

/-- Groups of the pieces of a list, put together, are that list. -/
theorem flatten_groups {p : Char → Bool} {text : List Char} {groups : List (List (List Char))}
    (h : groups.flatten = splitInclusive p text) : (groups.map List.flatten).flatten = text := by
  rw [← List.flatten_flatten, h, flatten_splitInclusive]

/-- The chunks of a block make it up, end with whitespace but for the last, and none is empty. -/
theorem blockChunks_spec (hblock : block ≠ []) : EndedEarly isWhitespace (blockChunks block) ∧
    [] ∉ blockChunks block ∧ (blockChunks block).flatten = block := by
  unfold blockChunks
  split_ifs with hatomic
  · exact ⟨.singleton _, by simpa using hblock.symm, by simp⟩
  · have hcut := cutBehind_splitInclusive (p := isWhitespace) block
    have hflat : (proseWords block).flatten = splitInclusive isWhitespace block := flatten_gather
    rw [splitProse_eq]
    refine ⟨?_, flatten_ne_nil gather_ne_nil (hflat ▸ hcut.ne_nil), flatten_groups hflat⟩
    exact EndedEarly.group (hflat ▸ hcut.endedEarly) gather_ne_nil (hflat ▸ hcut.ne_nil)

theorem flatten_blockLines : (blockLines markdown).flatten = splitInclusive (· = '\n') markdown :=
  flatten_gather

theorem blockLines_ne_nil : [] ∉ blockLines markdown := gather_ne_nil

theorem splitBlocks_ne_nil : [] ∉ splitBlocks markdown := by
  rw [splitBlocks_eq]
  apply flatten_ne_nil blockLines_ne_nil
  rw [flatten_blockLines]
  exact (cutBehind_splitInclusive markdown).ne_nil

theorem splitBlocks_endedEarly : EndedEarly isWhitespace (splitBlocks markdown) := by
  have hcut := cutBehind_splitInclusive (p := (· = '\n')) markdown
  have hlines : EndedEarly (· = '\n') (splitBlocks markdown) := by
    rw [splitBlocks_eq]
    apply EndedEarly.group _ blockLines_ne_nil
    · rw [flatten_blockLines]
      exact hcut.ne_nil
    · rw [flatten_blockLines]
      exact hcut.endedEarly
  apply hlines.mono
  intro c hc
  rw [of_decide_eq_true hc]
  rfl

theorem flatten_splitBlocks : (splitBlocks markdown).flatten = markdown := by
  rw [splitBlocks_eq]
  exact flatten_groups flatten_blockLines

end Pieces

/-! ### Lines that stay together -/

section Lines

variable {line : List Char} {inFence : Bool} {before region after : List (List Char)}

/-- What a line begins with after its indentation. -/
theorem isPrefixOf_dropWhile {part : List Char}
    (h : part.isPrefixOf (line.dropWhile isWhitespace) = true) :
    ∃ front rest, line = front ++ part ++ rest ∧ ∀ c ∈ front, isWhitespace c = true := by
  obtain ⟨rest, hrest⟩ := List.isPrefixOf_iff_prefix.mp h
  refine ⟨line.takeWhile isWhitespace, rest, ?_, fun c hc => List.mem_takeWhile_imp hc⟩
  rw [List.append_assoc, hrest, List.takeWhile_append_dropWhile]

theorem isTableRow_append {front rest : List Char} (hfront : ∀ c ∈ front, isWhitespace c = true) :
    isTableRow (front ++ '|' :: rest) = true := by
  rw [isTableRow, List.dropWhile_append_of_pos hfront]
  rfl

/-- The end of its line is not the bar of a row. -/
theorem isTableRow_dropLast (h : isTableRow line = true) {last : Char}
    (hlast : line.getLast? = some last) (hbar : last ≠ '|') :
    isTableRow line.dropLast = true := by
  obtain ⟨front, rest, rfl, hfront⟩ := isPrefixOf_dropWhile h
  cases rest using List.reverseRecOn with
  | nil =>
    rw [List.append_nil, List.getLast?_concat] at hlast
    exact absurd (Option.some.inj hlast).symm hbar
  | append_singleton rest d =>
    rw [← List.append_assoc, List.dropLast_concat, List.append_assoc]
    exact isTableRow_append hfront

theorem isTableRow_stripLineEnd (h : isTableRow line = true) :
    isTableRow (stripLineEnd line) = true := by
  unfold stripLineEnd
  split_ifs with hnewline hreturn
  · exact isTableRow_dropLast (isTableRow_dropLast h hnewline (by decide)) hreturn (by decide)
  · exact isTableRow_dropLast h hnewline (by decide)
  · exact h

/-- A table row is neither a fence line nor blank. -/
theorem closesBlock_of_isTableRow (h : isTableRow line = true) (current : List (List Char)) :
    closesBlock inFence current line = false := by
  obtain ⟨front, rest, rfl, hfront⟩ := isPrefixOf_dropWhile h
  have hfence : isFenceLine (front ++ ['|'] ++ rest) = false := by
    rw [isFenceLine, List.append_assoc, List.dropWhile_append_of_pos hfront]
    rfl
  have hblank : (front ++ ['|'] ++ rest).all isWhitespace = false := by
    simp [show isWhitespace '|' = false by decide]
  rw [closesBlock, if_neg (by rw [hfence]; decide), hblank, Bool.and_false, Bool.false_and]

theorem foldl_toggle : before.foldl toggle inFence = inFence ↔
    Even (before.countP isFenceLine) := by
  induction before generalizing inFence with
  | nil => simp
  | cons line before ih =>
    rw [List.foldl_cons]
    by_cases hfence : isFenceLine line = true
    · rw [List.countP_cons_of_pos hfence, Nat.even_add_one, toggle, if_pos hfence,
        ← @ih (!inFence), Bool.eq_not, not_not]
    · rw [List.countP_cons_of_neg hfence, toggle, if_neg hfence, ih]

/-- Outside a fence a region that closes no block before its end stays together. -/
theorem gather_carried (markdown : List Char)
    (h : splitInclusive (· = '\n') markdown = before ++ region ++ after)
    (houtside : OutsideFence before) : ∃ left carried, left.flatten ++ carried = before ∧
      blockLines markdown = left ++ gather toggle closesBlock false carried (region ++ after) := by
  obtain ⟨left, carried, hgather, hflat⟩ :=
    @gather_append _ _ toggle closesBlock false [] before (region ++ after)
  rw [foldl_toggle.mpr houtside] at hgather
  refine ⟨left, carried, hflat, ?_⟩
  rw [blockLines, h, List.append_assoc, hgather]

/-- Table rows outside a fence are lines of one block. -/
theorem IsTable.block {markdown : List Char} (htable : IsTable before region)
    (h : splitInclusive (· = '\n') markdown = before ++ region ++ after) :
    ∃ left front back right, left.flatten ++ front = before ∧
      blockLines markdown = left ++ (front ++ region ++ back) :: right := by
  obtain ⟨left, carried, hbefore, hlines⟩ := gather_carried markdown h htable.outside
  rw [gather_keeps] at hlines
  · have hbegun : carried ++ region ≠ [] := by simp [htable.inhabited]
    obtain ⟨back, right, hgather⟩ :=
      @gather_begun _ _ toggle closesBlock (region.foldl toggle false) _ after hbegun
    exact ⟨left, carried, back, right, hbefore, by rw [hlines, hgather]⟩
  · intro front line back hsplit
    exact closesBlock_of_isTableRow (htable.rows line (by simp [hsplit])) _

/-- A fence is lines of one block, and the block ends with it. -/
theorem IsFence.block {markdown : List Char} (hfence : IsFence before region)
    (h : splitInclusive (· = '\n') markdown = before ++ region ++ after) :
    ∃ left front right, left.flatten ++ front = before ∧
      blockLines markdown = left ++ (front ++ region) :: right := by
  obtain ⟨opening, inner, closing, rfl, hopening, hinner, hclosing⟩ := hfence.bounds
  obtain ⟨left, carried, hbefore, hlines⟩ := gather_carried markdown h hfence.outside
  -- the state is inside the fence from behind the opening line on
  have hinside : ∀ front, (∀ line ∈ front, isFenceLine line = false) →
      (opening :: front).foldl toggle false = true := by
    intro front hfront
    rw [List.foldl_cons, toggle, if_pos hopening, Bool.not_false, foldl_toggle,
      List.countP_eq_zero.mpr fun line hline => by simp [hfront line hline]]
    exact Even.zero
  rw [List.append_assoc, gather_keeps, hinside inner hinner, List.singleton_append, gather,
    if_pos (by rw [closesBlock, if_pos hclosing])] at hlines
  · exact ⟨left, carried, _, hbefore, by rw [hlines, List.append_assoc carried]⟩
  · intro front line back hsplit
    cases front with
    | nil =>
      obtain ⟨rfl, -⟩ := List.cons.inj hsplit
      rw [closesBlock, if_pos hopening]
      rfl
    | cons first front =>
      obtain ⟨rfl, hrest⟩ := List.cons.inj hsplit
      have hline : isFenceLine line = false := hinner line (by simp [hrest])
      rw [hinside front fun other hother => hinner other (by simp [hrest, hother]), closesBlock,
        if_neg (by simp [hline])]
      rfl

end Lines

/-! ### The answer in chunks -/

section Chunks

variable {markdown : List Char} {before region : List (List Char)}

theorem isAtomic_of_isFenceLine {block : List (List Char)} {line : List Char} (hline : line ∈ block)
    (h : isFenceLine line = true) : isAtomic block.flatten = true := by
  obtain ⟨front, rest, hsplit, -⟩ := isPrefixOf_dropWhile h
  have hfence : FENCE <:+: line := ⟨front, rest, hsplit.symm⟩
  rw [isAtomic, containsChars_iff.mpr (hfence.trans (List.infix_of_mem_flatten hline)),
    Bool.true_or]

theorem isAtomic_of_isTableRow {block : List (List Char)} (hcut : CutBehind (· = '\n') block)
    {line : List Char} (hline : line ∈ block) (h : isTableRow line = true) :
    isAtomic block.flatten = true := by
  have hrow : (lines block.flatten).any isTableRow = true := by
    rw [lines, hcut.splitInclusive, List.any_map, List.any_eq_true]
    exact ⟨line, hline, isTableRow_stripLineEnd h⟩
  rw [isAtomic, hrow, Bool.or_true]

theorem cutBehind_block {block : List (List Char)} (h : block ∈ blockLines markdown) :
    CutBehind (· = '\n') block := by
  obtain ⟨left, right, hsplit⟩ := List.append_of_mem h
  have hcut := cutBehind_splitInclusive (p := (· = '\n')) markdown
  rw [← flatten_blockLines, hsplit, List.flatten_append, List.flatten_cons] at hcut
  exact hcut.append.2.append.1

/-- An atomic block is sent as one chunk. -/
theorem inOneChunk_of_block {left right : List (List (List Char))}
    {front back : List (List Char)} (hbefore : left.flatten ++ front = before)
    (hlines : blockLines markdown = left ++ (front ++ region ++ back) :: right)
    (hatomic : isAtomic (front ++ region ++ back).flatten = true) :
    InOneChunk ((splitBlocks markdown).flatMap blockChunks) before.flatten region.flatten := by
  have hblocks : splitBlocks markdown = left.map List.flatten ++
      (front ++ region ++ back).flatten :: right.map List.flatten := by
    rw [splitBlocks_eq, hlines, List.map_append, List.map_cons]
  have hne : [] ∉ left.map List.flatten := by
    intro hmem
    apply @splitBlocks_ne_nil markdown
    rw [hblocks]
    exact List.mem_append_left _ hmem
  have hleft : ((left.map List.flatten).flatMap blockChunks).flatten = left.flatten.flatten := by
    rw [List.flatten_flatten]
    apply flatten_flatMap_cut
    intro block hblock
    exact (blockChunks_spec fun hnil => hne (hnil ▸ hblock)).2.2
  refine ⟨(left.map List.flatten).flatMap blockChunks, front.flatten, back.flatten,
    (right.map List.flatten).flatMap blockChunks, ?_, ?_⟩
  · rw [hblocks, List.flatMap_append, List.flatMap_cons, blockChunks, if_pos hatomic,
      List.flatten_append, List.flatten_append]
    rfl
  · rw [hleft, ← List.flatten_append, hbefore]

theorem chunks_spec : EndedEarly isWhitespace ((splitBlocks markdown).flatMap blockChunks) ∧
    [] ∉ (splitBlocks markdown).flatMap blockChunks ∧
    ((splitBlocks markdown).flatMap blockChunks).flatten = markdown := by
  have hblock : ∀ block ∈ splitBlocks markdown, EndedEarly isWhitespace (blockChunks block) ∧
      [] ∉ blockChunks block ∧ (blockChunks block).flatten = block := by
    intro block hblock
    exact blockChunks_spec fun hnil => splitBlocks_ne_nil (hnil ▸ hblock)
  refine ⟨splitBlocks_endedEarly.flatMap hblock splitBlocks_ne_nil, ?_, ?_⟩
  · intro hmem
    obtain ⟨block, hin, hnil⟩ := List.mem_flatMap.mp hmem
    exact (hblock block hin).2.1 hnil
  · rw [flatten_flatMap_cut fun block hin => (hblock block hin).2.2, flatten_splitBlocks]

end Chunks

/-- Whatever the answer is, its chunks stream safely. -/
theorem chunkMarkdown_streamsSafely (markdown : String) :
    StreamsSafely markdown.toList ((chunkMarkdown markdown).map String.toList) := by
  have hchunks : (chunkMarkdown markdown).map String.toList =
      (splitBlocks markdown.toList).flatMap blockChunks := by
    simp [chunkMarkdown]
  obtain ⟨hended, hne, hflat⟩ := @chunks_spec markdown.toList
  rw [hchunks]
  refine ⟨hflat, hne, ?_, ?_, ?_⟩
  · intro left right hsplit c hc d hd
    rw [hsplit] at hended hne
    have hright : right ≠ [] := by
      rintro rfl
      simp at hd
    exact Or.inl (hended.boundary (fun hnil => hne (List.mem_append_left _ hnil)) hright c hc)
  · intro before region after hlines htable
    obtain ⟨left, front, back, right, hbefore, hblocks⟩ := htable.block hlines
    obtain ⟨row, hrow⟩ := List.exists_mem_of_ne_nil region htable.inhabited
    refine inOneChunk_of_block hbefore hblocks (isAtomic_of_isTableRow ?_ ?_ (htable.rows row hrow))
    · exact cutBehind_block (by rw [hblocks]; simp)
    · simp [hrow]
  · intro before region after hlines hfence
    obtain ⟨left, front, right, hbefore, hblocks⟩ := hfence.block hlines
    obtain ⟨opening, inner, closing, rfl, hopening, -, -⟩ := hfence.bounds
    have hmem : opening ∈ front ++ (opening :: inner ++ [closing]) ++ [] := by simp
    exact inOneChunk_of_block hbefore (by rw [hblocks, List.append_nil])
      (isAtomic_of_isFenceLine hmem hopening)

/-- Two fences with a line between them. -/
def twoFences : String := "```\na\n```\nb\n```\nc\n```\n"

/-- The line behind a closed fence is not sent with it. -/
theorem between_fences_split :
    ¬ ∀ before region after,
      splitInclusive (· = '\n') twoFences.toList = before ++ region ++ after → FenceToFence region →
      InOneChunk ((chunkMarkdown twoFences).map String.toList) before.flatten region.flatten := by
  intro h
  have hregion : FenceToFence ["```\n".toList, "b\n".toList, "```\n".toList] :=
    ⟨_, ["b\n".toList], _, rfl, by decide, by decide, by decide⟩
  obtain ⟨left, front, back, right, hchunks, -⟩ :=
    h ["```\n".toList, "a\n".toList] _ ["c\n".toList, "```\n".toList] (by decide +kernel) hregion
  have hmem : front ++ ["```\n".toList, "b\n".toList, "```\n".toList].flatten ++ back ∈
      (chunkMarkdown twoFences).map String.toList := by
    rw [hchunks]
    exact List.mem_append_right _ List.mem_cons_self
  have hnone : ∀ chunk ∈ (chunkMarkdown twoFences).map String.toList,
      containsChars "```\nb\n```\n".toList chunk = false := by
    decide +kernel
  have hfound : containsChars "```\nb\n```\n".toList
      (front ++ ["```\n".toList, "b\n".toList, "```\n".toList].flatten ++ back) = true :=
    containsChars_iff.mpr ⟨front, back, rfl⟩
  rw [hnone _ hmem] at hfound
  cases hfound

end FineractReports.Job
