import Mips.Proofs.Statement.Lines
import Mips.Proofs.Statement.Spans
import Mips.Proofs.Statement.Stopping

/-!
Errors about unexpected tokens. The place that such an error names is the one where the reading of its line stops, and it says
that the line ends there if no token is left. What it says was found is the first token in that place, which is another one
than the token where the reading stops if a name there stands for several. Main statements: `find?_tokens` and
`stops_of_mem_errors`.
-/

namespace Mips

section Places

variable {definitions : Definitions} {item : Token.Item} {items : List Token.Item}

theorem tokens_of_skipped {token : Token} (means : item.meaning = .ok token)
    (skipped : (token = .comment || token = .newLine) = true) (defining : Bool) :
    definitions.tokens defining (item :: items) = definitions.tokens defining items := by
  simp only [Definitions.tokens, means]
  exact if_pos skipped

theorem tokens_of_read {token : Token} (means : item.meaning = .ok token)
    (read : ¬(token = .comment || token = .newLine) = true) (defining : Bool) :
    (definitions.tokens defining (item :: items)).1 =
      (definitions.expand defining token).map (·, item.span) ++ (definitions.tokens (token = .directive "eqv") items).1 := by
  simp only [Definitions.tokens, means]
  rw [if_neg read]

/-- Of the tokens that one of the items stands for, `first` is the first one and `stop` is any. -/
def Heads (definitions : Definitions) (items : List Token.Item) (first : Token) (stop : PlacedToken) : Prop :=
  ∃ item ∈ items, ∃ token defining further, item.meaning = .ok token ∧ item.span = stop.2 ∧
    definitions.expand defining token = first :: further ∧ stop.1 ∈ first :: further

theorem Heads.behind {first : Token} {stop : PlacedToken} (heads : Heads definitions items first stop) :
    Heads definitions (item :: items) first stop := by
  obtain ⟨other, among, found⟩ := heads
  exact ⟨other, List.mem_cons_of_mem item among, found⟩

/-- The first token in a place of a line is the first one that the item there stands for. -/
theorem find?_tokens (apart : items.Pairwise fun first second => first.span ≠ second.span) {defining : Bool}
    {stop : PlacedToken} (member : stop ∈ (definitions.tokens defining items).1) :
    ∃ first, (definitions.tokens defining items).1.find? (fun placed => placed.2 = stop.2) = some (first, stop.2) ∧
      Heads definitions items first stop := by
  induction items generalizing defining with
  | nil => cases member
  | cons item rest ih =>
    obtain ⟨others, later⟩ := List.pairwise_cons.1 apart
    cases means : item.meaning with
    | error error =>
      rw [Definitions.tokens, means] at member
      cases member
    | ok token =>
      by_cases skipped : (token = .comment || token = .newLine) = true
      · rw [tokens_of_skipped means skipped] at member ⊢
        obtain ⟨first, found, heads⟩ := ih later member
        exact ⟨first, found, heads.behind⟩
      · rw [tokens_of_read means skipped] at member ⊢
        rcases List.mem_append.1 member with here | behind
        · obtain ⟨replaced, among, rfl⟩ := List.mem_map.1 here
          obtain ⟨first, further, expands⟩ := List.exists_cons_of_ne_nil (List.ne_nil_of_mem among)
          refine ⟨first, ?_, item, List.mem_cons_self, token, defining, further, means, rfl, expands, expands ▸ among⟩
          rw [expands, List.map_cons, List.cons_append, List.find?_cons_of_pos (by simp)]
        · obtain ⟨first, found, heads⟩ := ih later behind
          refine ⟨first, ?_, heads.behind⟩
          have elsewhere : ((definitions.expand defining token).map (·, item.span)).find?
              (fun placed => placed.2 = stop.2) = none := by
            obtain ⟨other, among, _, _, _, _, same, _⟩ := heads
            rw [List.find?_eq_none]
            intro placed member
            obtain ⟨replaced, -, rfl⟩ := List.mem_map.1 member
            simpa [← same] using others other among
          rw [List.find?_append, elsewhere, Option.none_or, found]

/-- What an error says was found is the token, or the first one of those that a name in its place stands for. -/
def Described (definitions : Definitions) (text : List Char) (stop : PlacedToken) (found : String) : Prop :=
  found = stop.1.description ∨
    ∃ name first further, (Label.mk name stop.2.start).Spelled text ∧ definitions.lookup name = some (first :: further) ∧
      stop.1 ∈ further ∧ found = first.description

theorem described_of_heads {text : String} {first : Token} {stop : PlacedToken}
    (heads : Heads definitions (Token.items text) first stop) :
    Described definitions text.toList stop first.description := by
  obtain ⟨item, among, token, defining, further, means, place, expands, present⟩ := heads
  rcases List.mem_cons.1 present with same | behind
  · exact .inl (congrArg Token.description same.symm)
  · unfold Definitions.expand at expands
    split at expands
    next name =>
      split at expands
      · cases expands
        cases behind
      · cases known : definitions.lookup name with
        | none =>
          rw [known] at expands
          cases expands
          cases behind
        | some value =>
          rw [known, Option.getD_some] at expands
          obtain ⟨before, inside, after, whole, span, spelled⟩ := Token.cut_of_mem_itemsFrom among
          rw [spelled name means] at whole span
          have starts : stop.2.start = byteLength before := by rw [← place, span, Nat.zero_add]
          exact .inr ⟨name, first, further, ⟨before, after, whole, starts⟩, known.trans (congrArg some expands), behind, rfl⟩
    next =>
      cases expands
      cases behind

theorem spans_ne_of_items (text : String) :
    (Token.items text).Pairwise fun first second => first.span ≠ second.span := by
  refine (Token.pairwise_itemsFrom 0 text.toList).imp_of_mem ?_
  intro first second among _ order same
  have visible := (Token.place_of_mem_itemsFrom among).2
  rw [same] at visible order
  omega

/-- An error at one of the tokens of a line names its place and describes it, or the first one of its place. -/
theorem exists_unexpected {text : String} {tokens : Rest} (lexed : (definitions.tokens false (Token.items text)).1 = tokens)
    (length : Nat) (expected : String) {stop : PlacedToken} (member : stop ∈ tokens) (rest : Rest) :
    ∃ found,
      (TokenLine.mk tokens length).unexpected expected (stop :: rest) = ⟨.unexpectedToken found expected, stop.2⟩ ∧
        Described definitions text.toList stop found := by
  subst lexed
  obtain ⟨first, found, heads⟩ := find?_tokens (spans_ne_of_items text) member
  refine ⟨first.description, ?_, described_of_heads heads⟩
  unfold TokenLine.unexpected
  dsimp only [TokenLine.here]
  rw [found]

/-- An error behind the last token of a line says that the line ends there. -/
theorem unexpected_end {text : String} {tokens : Rest} (lexed : (definitions.tokens false (Token.items text)).1 = tokens)
    (length : Nat) (expected : String) :
    (TokenLine.mk tokens length).unexpected expected [] = ⟨.unexpectedEnd expected, ⟨length, length⟩⟩ := by
  subst lexed
  have nothing :
      (definitions.tokens false (Token.items text)).1.find? (fun placed => placed.2 = ⟨length, length⟩) = none := by
    rw [List.find?_eq_none]
    intro placed member same
    obtain ⟨first, -, item, among, _, _, _, _, place, -⟩ := find?_tokens (spans_ne_of_items text) member
    have visible := (Token.place_of_mem_itemsFrom among).2
    rw [place, of_decide_eq_true same] at visible
    exact Nat.lt_irrefl length visible
  unfold TokenLine.unexpected
  dsimp only [TokenLine.here]
  rw [nothing]

end Places

theorem isSpecific_of_tokens {definitions : Definitions} {items : List Token.Item} {defining : Bool} {failure : LineError}
    (failed : (definitions.tokens defining items).2 = some failure) : failure.error.isSpecific = true := by
  induction items generalizing defining with
  | nil => cases failed
  | cons item rest ih =>
    unfold Definitions.tokens at failed
    split at failed
    next =>
      cases failed
      rfl
    next =>
      split at failed
      next => exact ih failed
      next => exact ih failed

/-- Something is expected only in a line whose tokens are all right. -/
theorem tokens_of_vague {definitions : Definitions} {text : String} {number : Nat} {failure : LineError}
    (failed : parseLineWith definitions text number = .error failure) (vague : failure.error.isSpecific = false) :
    (definitions.tokens false (Token.items text)).2 = none := by
  cases lexed : (definitions.tokens false (Token.items text)).2 with
  | none => rfl
  | some error =>
    have specific : failure.error.isSpecific = true := by
      unfold parseLineWith at failed
      dsimp only at failed
      rw [lexed] at failed
      dsimp only at failed
      split at failed
      next name span rest _ =>
        cases known : TokenLine.readMnemonic name span with
        | error unknown =>
          rw [known] at failed
          cases failed
          exact TokenLine.isSpecific_of_readMnemonic known
        | ok mnemonic =>
          rw [known] at failed
          cases failed
          exact isSpecific_of_tokens lexed
      next =>
        cases failed
        exact isSpecific_of_tokens lexed
    rw [specific] at vague
    cases vague

/-- The reading of a line stops between these tokens of it, and the error says where and why. -/
structure StopsAt (definitions : Definitions) (text : String) (before after : Rest) (error : LineError) : Prop where
  tokens : definitions.tokens false (Token.items text) = (before ++ after, none)
  continuable : Continuable before
  refused : ¬Accepted (before ++ after)
  ended : after = [] →
    error.span = ⟨text.utf8ByteSize, text.utf8ByteSize⟩ ∧ ∃ expected, error.error = .unexpectedEnd expected
  named : ∀ stop rest, after = stop :: rest → ¬Continuable (before ++ [stop]) ∧ error.span = stop.2 ∧
    ∃ found expected, error.error = .unexpectedToken found expected ∧ Described definitions text.toList stop found

theorem stopsAt_of_parseLineWith {definitions : Definitions} {text : String} {number : Nat} {failure : LineError}
    (failed : parseLineWith definitions text number = .error failure) (vague : failure.error.isSpecific = false) :
    ∃ before after, StopsAt definitions text before after failure := by
  have lexed : definitions.tokens false (Token.items text) = ((definitions.tokens false (Token.items text)).1, none) :=
    Prod.ext rfl (tokens_of_vague failed vague)
  rw [parseLineWith_of_tokens lexed] at failed
  obtain ⟨before, after, expected, whole, rfl, continuable, refused, stopped⟩ := stopped_of_parseTokens failed vague
  dsimp only at whole refused
  refine ⟨before, after, whole ▸ lexed, continuable, whole ▸ refused, ?_, ?_⟩
  · rintro rfl
    rw [unexpected_end rfl]
    exact ⟨rfl, expected, rfl⟩
  · rintro stop rest rfl
    have member : stop ∈ (definitions.tokens false (Token.items text)).1 := by
      rw [whole]
      exact List.mem_append_right before List.mem_cons_self
    obtain ⟨found, same, described⟩ := exists_unexpected rfl text.utf8ByteSize expected member rest
    rw [same]
    exact ⟨stopped stop rfl, rfl, found, expected, rfl, described⟩

/--
Of a text each error that something was expected tells where the reading of its line stops: behind tokens that can be the first
ones of a line without errors. If these are all, then the error says that the line ends. If not, it names the place of the next
token, with which no line without errors goes on, and describes this token, or the first one of those that a name in its place
stands for.
-/
theorem stops_of_mem_errors {text : String} {error : SourceError} (member : error ∈ (parseLines text).2)
    (vague : error.error.isSpecific = false) :
    ∃ earlier source later before after, lines text = earlier ++ source :: later ∧ error.line = earlier.length + 1 ∧
      StopsAt (Definitions.behind [] 1 earlier) source before after ⟨error.error, error.span⟩ := by
  rw [parseLines, parseLinesFrom_eq] at member
  obtain ⟨outcome, among, failed⟩ := List.mem_filterMap.1 member
  obtain ⟨index, inside, rfl⟩ := List.mem_mapIdx.1 among
  unfold readLine at failed
  split at failed
  next => cases failed
  next failure read =>
    cases failed
    obtain ⟨before, after, stops⟩ := stopsAt_of_parseLineWith read vague
    refine ⟨(lines text).take index, (lines text)[index], (lines text).drop (index + 1), before, after, ?_, ?_, stops⟩
    · rw [← List.drop_eq_getElem_cons inside, List.take_append_drop]
    · rw [List.length_take, Nat.min_eq_left (Nat.le_of_lt inside), Nat.add_comm]

/-- The number that a name stands for is no register, and the error says that it is an integer. -/
theorem stops_of_named_offset :
    let text := ".eqv size 4\nadd $t0, (size)"
    let error : SourceError := ⟨.unexpectedToken "integer 4" "register", 2, ⟨10, 14⟩⟩
    (error ∈ (parseLines text).2 ∧ error.error.isSpecific = false) ∧
      ∃ earlier source later before after, lines text = earlier ++ source :: later ∧ error.line = earlier.length + 1 ∧
        StopsAt (Definitions.behind [] 1 earlier) source before after ⟨error.error, error.span⟩ := by
  intro text error
  have member : error ∈ (parseLines text).2 := by
    have errors : (parseLines text).2 = [error] := by decide +kernel
    rw [errors]
    exact List.mem_singleton_self error
  exact ⟨⟨member, rfl⟩, stops_of_mem_errors member rfl⟩

/-- Of a sum that a name stands for the number can be an operand and the plus cannot, but the error says it is the number. -/
theorem found_ne_stop :
    let text := ".eqv sum 1 + 2\nli $t0, sum"
    let place : Span := ⟨8, 11⟩
    let before : Rest :=
      [(.identifier "li", ⟨0, 2⟩), (.register ⟨8⟩, ⟨3, 6⟩), (.comma, ⟨6, 7⟩), (.integer 1, place)]
    let stop : PlacedToken := (.plus, place)
    lines text = [".eqv sum 1 + 2", "li $t0, sum"] ∧
      Definitions.tokens (Definitions.behind [] 1 [".eqv sum 1 + 2"]) false (Token.items "li $t0, sum") =
        (before ++ [stop, (.integer 2, place)], none) ∧
      Continuable before ∧ ¬Continuable (before ++ [stop]) ∧
        (parseLines text).2 = [⟨.unexpectedToken "integer 1" "operand", 2, place⟩] ∧
          stop.1.description = "'+'" := by
  intro text place before stop
  have known : Mnemonic.ofName? (Text.lowercase "li") = some (.pseudo .li) := by decide +kernel
  have named : TokenLine.readMnemonic "li" ⟨0, 2⟩ = .ok (.pseudo .li) := by rw [TokenLine.readMnemonic, known]
  refine ⟨by decide +kernel, by decide +kernel, ?_, ?_, by decide +kernel, rfl⟩
  · refine ⟨[], @accepted_of_readSentence _ ((), []) fun line => ?_⟩
    refine (TokenLine.readSentence_identifier line (by decide)).trans ?_
    simp [TokenLine.readInstruction, named, Reader.map, Reader.bind, Reader.toEnd, Reader.done, TokenLine.readOperands,
      TokenLine.readOperand, TokenLine.afterComma, bind, Except.bind, Except.map]
  · rintro ⟨more, accepted⟩
    obtain ⟨found, read⟩ := readSentence_of_accepted accepted
    have sentence := (TokenLine.readSentence_identifier ⟨[], 0⟩ (by simp [ahead])).symm.trans (read ⟨[], 0⟩)
    simp [TokenLine.readInstruction, named, Reader.map, Reader.bind, Reader.toEnd, TokenLine.readOperands,
      TokenLine.readOperand, TokenLine.afterComma, bind, Except.bind, Except.map, stop] at sentence

end Mips
