import Mathlib.Logic.Basic
import Mips.Loading
import Mips.Proofs.Layout.Order
import Mips.Proofs.Memory.Bytes

/-!
What memory holds when a program has been loaded: a word of a program holds an instruction or up to four bytes of data,
but not both. Main statements: `isSome_words_fill`, `word?_fill`, `byteAt_fill` and `byteAt_fill_of_not_mem`.
-/

namespace Mips

open Std (ExtTreeMap)

namespace Memory

/-- Memory with the words of instructions at their addresses. -/
def withCode (memory : Memory) (statements : List ProgramStatement) : Memory :=
  statements.foldl (fun memory statement => memory.setWord statement.address statement.instruction.word) memory

/-- Memory with bytes at their addresses. -/
def withBytes (memory : Memory) (cells : List (Address × UInt8)) : Memory :=
  cells.foldl (fun memory cell => memory.setByte cell.1 cell.2) memory

section Writes

variable {α β : Type} {write : Memory → α → Memory} {items : List α}

/-- What no write changes is as it was after all of them. -/
theorem foldl_eq_of_forall (read : Memory → β) (kept : ∀ item ∈ items, ∀ memory, read (write memory item) = read memory)
    (memory : Memory) : read (items.foldl write memory) = read memory := by
  induction items generalizing memory with
  | nil => rfl
  | cons item rest ih =>
    rw [List.forall_mem_cons] at kept
    calc
      read (rest.foldl write (write memory item)) = read (write memory item) := ih kept.2 _
      _ = read memory := kept.1 memory

/-- What one write puts somewhere is found there after all of them, if no later one changes it. -/
theorem foldl_eq_of_mem (read : α → Memory → β) (value : α → β)
    (written : ∀ item memory, read item (write memory item) = value item)
    (apart : items.Pairwise fun first second => ∀ memory, read first (write memory second) = read first memory)
    (memory : Memory) {item : α} (member : item ∈ items) : read item (items.foldl write memory) = value item := by
  induction items generalizing memory with
  | nil => cases member
  | cons first rest ih =>
    rw [List.pairwise_cons] at apart
    rcases List.mem_cons.1 member with rfl | later
    · calc
        read item (rest.foldl write (write memory item)) = read item (write memory item) :=
          foldl_eq_of_forall (read item) apart.1 _
        _ = value item := written item memory
    · exact ih apart.2 _ later

/-- The words that are present after writes are those that were written and those that were there. -/
theorem isSome_words_foldl {place : α → Address}
    (written : ∀ memory item other,
      (write memory item).words[other]?.isSome ↔ Word.align (place item) = other ∨ memory.words[other]?.isSome)
    (memory : Memory) (other : Address) :
    (items.foldl write memory).words[other]?.isSome ↔
      (∃ item ∈ items, Word.align (place item) = other) ∨ memory.words[other]?.isSome := by
  induction items generalizing memory with
  | nil => simp
  | cons item rest ih =>
    simp only [List.foldl_cons, ih, written, List.mem_cons, exists_eq_or_imp, or_assoc]
    grind

end Writes

variable (memory : Memory)

/-- The rules for accessing memory are not changed by what is written to it. -/
theorem rules_setBytes (address : Address) (bytes : List UInt8) :
    (memory.setBytes address bytes).layout = memory.layout ∧
      (memory.setBytes address bytes).selfModifying = memory.selfModifying := by
  induction bytes generalizing memory address with
  | nil => exact ⟨rfl, rfl⟩
  | cons byte rest ih => exact ih _ _

theorem rules_setWords (address : Address) (words : List Word) :
    (memory.setWords address words).layout = memory.layout ∧
      (memory.setWords address words).selfModifying = memory.selfModifying := by
  induction words generalizing memory address with
  | nil => exact ⟨rfl, rfl⟩
  | cons word rest ih => exact ih _ _

theorem isSome_words_setWord (address other : Address) (word : Word) :
    (memory.setWord address word).words[other]?.isSome ↔ Word.align address = other ∨ memory.words[other]?.isSome := by
  simp only [setWord, assign, ExtTreeMap.getElem?_insert, Std.LawfulEqCmp.compare_eq_iff_eq]
  split <;> simp [*]

theorem rules_withCode (statements : List ProgramStatement) :
    (memory.withCode statements).layout = memory.layout ∧
      (memory.withCode statements).selfModifying = memory.selfModifying := by
  unfold withCode
  constructor
  · apply foldl_eq_of_forall layout
    exact fun _ _ _ => rfl
  · apply foldl_eq_of_forall selfModifying
    exact fun _ _ _ => rfl

theorem rules_withBytes (cells : List (Address × UInt8)) :
    (memory.withBytes cells).layout = memory.layout ∧
      (memory.withBytes cells).selfModifying = memory.selfModifying := by
  unfold withBytes
  constructor
  · apply foldl_eq_of_forall layout
    exact fun _ _ _ => rfl
  · apply foldl_eq_of_forall selfModifying
    exact fun _ _ _ => rfl

theorem isSome_words_withCode (statements : List ProgramStatement) (other : Address) :
    (memory.withCode statements).words[other]?.isSome ↔
      (∃ statement ∈ statements, Word.align statement.address = other) ∨ memory.words[other]?.isSome :=
  isSome_words_foldl (fun memory statement other => memory.isSome_words_setWord statement.address other _) memory other

theorem isSome_words_withBytes (cells : List (Address × UInt8)) (other : Address) :
    (memory.withBytes cells).words[other]?.isSome ↔
      (∃ cell ∈ cells, Word.align cell.1 = other) ∨ memory.words[other]?.isSome :=
  isSome_words_foldl (fun memory cell other => memory.isSome_words_setWord cell.1 other _) memory other

/-- A word in which no instruction is put stays. -/
theorem wordAt_withCode_of_forall {statements : List ProgramStatement} {other : Address}
    (away : ∀ statement ∈ statements, Word.align statement.address ≠ Word.align other) :
    (memory.withCode statements).wordAt other = memory.wordAt other := by
  refine foldl_eq_of_forall (fun memory => memory.wordAt other) ?_ memory
  intro statement member memory
  rw [wordAt_setWord, if_neg (away statement member)]

theorem wordAt_withCode_of_mem {statements : List ProgramStatement}
    (apart : statements.Pairwise fun first second => Word.align first.address ≠ Word.align second.address)
    {statement : ProgramStatement} (member : statement ∈ statements) :
    (memory.withCode statements).wordAt statement.address = statement.instruction.word := by
  unfold withCode
  apply foldl_eq_of_mem (fun (statement : ProgramStatement) memory => memory.wordAt statement.address) fun statement =>
    statement.instruction.word
  · intro statement memory
    rw [wordAt_setWord, if_pos rfl]
  · refine apart.imp fun different memory => ?_
    rw [wordAt_setWord, if_neg different.symm]
  · exact member

/-- A byte that is not written stays. -/
theorem byteAt_withBytes_of_forall {cells : List (Address × UInt8)} {other : Address}
    (away : ∀ cell ∈ cells, cell.1 ≠ other) : (memory.withBytes cells).byteAt other = memory.byteAt other := by
  refine foldl_eq_of_forall (fun memory => memory.byteAt other) ?_ memory
  intro cell member memory
  rw [byteAt_setByte, if_neg (away cell member)]

theorem byteAt_withBytes_of_mem {cells : List (Address × UInt8)}
    (apart : cells.Pairwise fun first second => first.1 ≠ second.1) {address : Address} {byte : UInt8}
    (member : (address, byte) ∈ cells) : (memory.withBytes cells).byteAt address = byte := by
  unfold withBytes
  apply foldl_eq_of_mem (fun (cell : Address × UInt8) memory => memory.byteAt cell.1) Prod.snd ?_ ?_ memory member
  · intro cell memory
    rw [byteAt_setByte, if_pos rfl]
  · refine apart.imp fun different memory => ?_
    rw [byteAt_setByte, if_neg different.symm]

/-- A word of which no byte is written stays. -/
theorem wordAt_withBytes_of_forall {cells : List (Address × UInt8)} {other : Address}
    (away : ∀ cell ∈ cells, Word.align cell.1 ≠ Word.align other) :
    (memory.withBytes cells).wordAt other = memory.wordAt other := by
  refine foldl_eq_of_forall (fun memory => memory.wordAt other) ?_ memory
  intro cell member memory
  rw [setByte, wordAt_setWord, if_neg (away cell member)]

end Memory

/--
Instructions lie in text segments at multiples of four, and they know their addresses; data lie in other segments.
-/
structure Program.Located (layout : Layout) (program : Program) : Prop where
  own : ∀ address statement, program.statementAt? address = some statement → statement.address = address
  aligned : ∀ address ∈ program.statements, Word.isAligned address = true
  code : ∀ address ∈ program.statements, layout.IsText address
  data : ∀ address ∈ program.data, ∃ segment, layout.segmentOf address = some segment ∧ segment.isText = false

theorem fill_eq (program : Program) (memory : Memory) :
    program.fill memory = (memory.withCode program.statementList).withBytes program.data.toList := rfl

theorem rules_fill (program : Program) (memory : Memory) :
    (program.fill memory).layout = memory.layout ∧ (program.fill memory).selfModifying = memory.selfModifying := by
  have bytes := (memory.withCode program.statementList).rules_withBytes program.data.toList
  have code := memory.rules_withCode program.statementList
  exact ⟨bytes.1.trans code.1, bytes.2.trans code.2⟩

namespace Program

variable {layout : Layout} {program : Program}

theorem mem_data_toList {cell : Address × UInt8} : cell ∈ program.data.toList ↔ program.data[cell.1]? = some cell.2 :=
  ExtTreeMap.mem_toList_iff_getElem?_eq_some

theorem mem_data_of_mem_toList {cell : Address × UInt8} (member : cell ∈ program.data.toList) : cell.1 ∈ program.data :=
  (ExtTreeMap.getElem?_eq_some_iff.1 (mem_data_toList.1 member)).fst

variable (ordered : layout.Ordered) (located : program.Located layout) (memory : Memory)

include located

theorem Located.align_eq {address : Address} (here : address ∈ program.statements) : Word.align address = address :=
  Word.align_of_isAligned (located.aligned address here)

theorem Located.mem_statementList {statement : ProgramStatement} :
    statement ∈ program.statementList ↔ program.statementAt? statement.address = some statement := by
  simp only [statementList, List.mem_map, Prod.exists, ExtTreeMap.mem_toList_iff_getElem?_eq_some, exists_eq_right]
  constructor
  · rintro ⟨address, found⟩
    rwa [located.own address statement found]
  · intro found
    exact ⟨statement.address, found⟩

theorem Located.mem_of_mem_statementList {statement : ProgramStatement} (member : statement ∈ program.statementList) :
    statement.address ∈ program.statements :=
  (ExtTreeMap.getElem?_eq_some_iff.1 (located.mem_statementList.1 member)).fst

/-- Each instruction has a word of its own. -/
theorem Located.pairwise_statementList :
    program.statementList.Pairwise fun first second => Word.align first.address ≠ Word.align second.address := by
  refine List.pairwise_map.2 (program.statements.distinct_keys_toList.imp_of_mem ?_)
  intro first second inFirst inSecond different same
  rw [ExtTreeMap.mem_toList_iff_getElem?_eq_some] at inFirst inSecond
  have aligned (cell : Address × ProgramStatement) (found : program.statements[cell.1]? = some cell.2) :
      Word.align cell.2.address = cell.1 := by
    rw [located.own cell.1 cell.2 found]
    exact located.align_eq (ExtTreeMap.getElem?_eq_some_iff.1 found).fst
  rw [aligned first inFirst, aligned second inSecond] at same
  exact different (Std.LawfulEqCmp.compare_eq_iff_eq.2 same)

include ordered in
/-- No byte of data lies in the word of an instruction. -/
theorem Located.align_ne {address byte : Address} (code : address ∈ program.statements) (data : byte ∈ program.data) :
    Word.align byte ≠ address := by
  rintro rfl
  obtain ⟨segment, mapped, other⟩ := located.data _ data
  exact Layout.not_isText_align ordered mapped other (located.code _ code)

/-- A word is written exactly if it is an instruction or has a byte of data. -/
theorem isSome_words_fill (address : Address) :
    (program.fill memory).words[address]?.isSome ↔
      (address ∈ program.statements ∨ ∃ byte ∈ program.data, Word.align byte = address) ∨
        memory.words[address]?.isSome := by
  have code : (∃ statement ∈ program.statementList, Word.align statement.address = address) ↔
      address ∈ program.statements := by
    constructor
    · rintro ⟨statement, member, rfl⟩
      have here := located.mem_of_mem_statementList member
      rwa [located.align_eq here]
    · intro here
      have found := ExtTreeMap.getElem?_eq_some_getElem here
      have same := located.own address _ found
      refine ⟨program.statements[address], located.mem_statementList.2 ?_, ?_⟩
      · rwa [same]
      · rw [same, located.align_eq here]
  have data : (∃ cell ∈ program.data.toList, Word.align cell.1 = address) ↔
      ∃ byte ∈ program.data, Word.align byte = address := by
    constructor
    · rintro ⟨cell, member, same⟩
      exact ⟨cell.1, mem_data_of_mem_toList member, same⟩
    · rintro ⟨byte, here, same⟩
      exact ⟨(byte, program.data[byte]), mem_data_toList.2 (ExtTreeMap.getElem?_eq_some_getElem here), same⟩
  rw [fill_eq, Memory.isSome_words_withBytes, Memory.isSome_words_withCode, code, data, or_left_comm, or_assoc]

include ordered in
/-- At the address of an instruction lies its word. -/
theorem word?_fill {address : Address} {statement : ProgramStatement}
    (found : program.statementAt? address = some statement) :
    (program.fill memory).word? address = some statement.instruction.word := by
  have same := located.own address statement found
  subst same
  have here : statement.address ∈ program.statements := (ExtTreeMap.getElem?_eq_some_iff.1 found).fst
  have aligned := located.align_eq here
  have apart : ∀ cell ∈ program.data.toList, Word.align cell.1 ≠ Word.align statement.address := by
    intro cell member
    rw [aligned]
    exact located.align_ne ordered here (mem_data_of_mem_toList member)
  have content : (program.fill memory).wordAt statement.address = statement.instruction.word :=
    calc
      _ = (memory.withCode program.statementList).wordAt statement.address := Memory.wordAt_withBytes_of_forall _ apart
      _ = statement.instruction.word :=
        memory.wordAt_withCode_of_mem located.pairwise_statementList (located.mem_statementList.2 found)
  have present := (isSome_words_fill located memory statement.address).2 (.inl (.inl here))
  obtain ⟨word, held⟩ := Option.isSome_iff_exists.1 present
  rw [Memory.wordAt, Memory.word?, aligned, held] at content
  rw [Memory.word?, aligned, held]
  exact congrArg some content

omit located in
/-- At the address of a byte of data lies that byte. -/
theorem byteAt_fill {address : Address} {byte : UInt8} (found : program.data[address]? = some byte) :
    (program.fill memory).byteAt address = byte := by
  have apart : program.data.toList.Pairwise fun first second => first.1 ≠ second.1 :=
    program.data.distinct_keys_toList.imp fun different same => different (Std.LawfulEqCmp.compare_eq_iff_eq.2 same)
  exact Memory.byteAt_withBytes_of_mem _ apart (mem_data_toList.2 found)

/-- All other bytes are as they were. -/
theorem byteAt_fill_of_not_mem {address : Address} (data : address ∉ program.data)
    (code : Word.align address ∉ program.statements) :
    (program.fill memory).byteAt address = memory.byteAt address := by
  have bytes : ∀ cell ∈ program.data.toList, cell.1 ≠ address := by
    rintro cell member rfl
    exact data (mem_data_of_mem_toList member)
  have words : ∀ statement ∈ program.statementList, Word.align statement.address ≠ Word.align address := by
    intro statement member same
    have here := located.mem_of_mem_statementList member
    rw [located.align_eq here] at same
    exact code (same ▸ here)
  calc
    _ = (memory.withCode program.statementList).byteAt address := Memory.byteAt_withBytes_of_forall _ bytes
    _ = memory.byteAt address := Memory.byteAt_congr (Memory.wordAt_withCode_of_forall _ words)

end Program

end Mips
