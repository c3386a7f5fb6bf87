import Mathlib.Data.List.Forall2

/-! # Backtracking regular expressions

Patterns as a backtracking engine matches them. A pattern leads from a place in a text to the
places where it can stop, in the order in which the engine tries them, and the first one counts.
`Matches` says which places these are without an order, and a search finds a match exactly when
there is one.
-/

namespace Regex

/-- A place in a text: what is before it, the last character first, and what is after it. -/
structure Place where
  before : List Char
  after : List Char
deriving DecidableEq

/-- A pattern. `many` is the greedy repetition of a class, and `look` reads nothing. -/
inductive Pattern where
  | empty
  | one (accepts : Char → Bool)
  | look (holds : Place → Bool)
  | seq (first second : Pattern)
  | alt (first second : Pattern)
  | many (accepts : Char → Bool)

/-- The stops of a greedy repetition, the longest first. -/
def runMany (accepts : Char → Bool) (before : List Char) : List Char → List Place
  | [] => [⟨before, []⟩]
  | char :: after =>
      if accepts char then runMany accepts (char :: before) after ++ [⟨before, char :: after⟩]
      else [⟨before, char :: after⟩]

namespace Pattern

/-- The places where a pattern can stop, in the order in which they are tried. -/
def run : Pattern → Place → List Place
  | empty, place => [place]
  | one accepts, place =>
      match place.after with
      | [] => []
      | char :: after => if accepts char then [⟨char :: place.before, after⟩] else []
  | look holds, place => if holds place then [place] else []
  | seq first second, place => (first.run place).flatMap second.run
  | alt first second, place => first.run place ++ second.run place
  | many accepts, place => runMany accepts place.before place.after

/-- The pattern leads from the first place to the second. -/
inductive Matches : Pattern → Place → Place → Prop
  | empty (place : Place) : Matches .empty place place
  | one {accepts : Char → Bool} {before after : List Char} {char : Char}
      (accepted : accepts char = true) :
      Matches (.one accepts) ⟨before, char :: after⟩ ⟨char :: before, after⟩
  | look {holds : Place → Bool} {place : Place} (held : holds place = true) :
      Matches (.look holds) place place
  | seq {first second : Pattern} {start middle stop : Place} (left : Matches first start middle)
      (right : Matches second middle stop) : Matches (.seq first second) start stop
  | left {first second : Pattern} {start stop : Place} (taken : Matches first start stop) :
      Matches (.alt first second) start stop
  | right {first second : Pattern} {start stop : Place} (taken : Matches second start stop) :
      Matches (.alt first second) start stop
  | many {accepts : Char → Bool} {before read rest : List Char}
      (accepted : ∀ char ∈ read, accepts char = true) :
      Matches (.many accepts) ⟨before, read ++ rest⟩ ⟨read.reverse ++ before, rest⟩

/-- What a repetition comes to is where it matches to. -/
theorem mem_runMany {accepts : Char → Bool} {before after : List Char} {stop : Place} :
    stop ∈ runMany accepts before after ↔ Matches (.many accepts) ⟨before, after⟩ stop := by
  have stays {before after : List Char} :
      Matches (.many accepts) ⟨before, [] ++ after⟩ ⟨List.reverse [] ++ before, after⟩ :=
    .many fun _ absent => by cases absent
  constructor
  · intro stops
    induction after generalizing before with
    | nil =>
        rw [List.mem_singleton.mp stops]
        exact stays
    | cons char after ih =>
        rw [runMany] at stops
        split at stops
        · next accepted =>
            rcases List.mem_append.mp stops with further | stopped
            · cases ih further with
              | @many _ _ read rest all =>
                  have more : Matches (.many accepts) ⟨before, (char :: read) ++ rest⟩
                      ⟨(char :: read).reverse ++ before, rest⟩ :=
                    .many (List.forall_mem_cons.mpr ⟨accepted, all⟩)
                  rwa [List.reverse_cons, List.append_assoc] at more
            · rw [List.mem_singleton.mp stopped]
              exact stays
        · rw [List.mem_singleton.mp stops]
          exact stays
  · intro matched
    cases matched with
    | @many _ _ read rest all =>
        induction read generalizing before with
        | nil =>
            cases rest with
            | nil => exact List.mem_cons_self
            | cons char rest =>
                rw [List.nil_append, runMany]
                split
                · exact List.mem_append_right _ List.mem_cons_self
                · exact List.mem_cons_self
        | cons char read ih =>
            rw [List.forall_mem_cons] at all
            rw [List.cons_append, runMany, if_pos all.1, List.reverse_cons, List.append_assoc]
            exact List.mem_append_left _ (ih all.2)

/-- The engine tries the places that match, and no others. -/
theorem mem_run {pattern : Pattern} {start stop : Place} :
    stop ∈ pattern.run start ↔ pattern.Matches start stop := by
  induction pattern generalizing start stop with
  | empty =>
      rw [run, List.mem_singleton]
      constructor
      · rintro rfl
        exact .empty stop
      · rintro ⟨⟩
        rfl
  | one accepts =>
      rcases start with ⟨before, after⟩
      cases after with
      | nil =>
          constructor
          · exact fun absent => by cases absent
          · exact fun matched => by cases matched
      | cons char after =>
          rw [run]
          dsimp only
          constructor
          · split
            · next accepted =>
                intro stops
                rw [List.mem_singleton.mp stops]
                exact .one accepted
            · exact fun absent => by cases absent
          · rintro ⟨⟩
            next accepted =>
              rw [if_pos accepted]
              exact List.mem_cons_self
  | look holds =>
      rw [run]
      constructor
      · split
        · next held =>
            intro stops
            rw [List.mem_singleton.mp stops]
            exact .look held
        · exact fun absent => by cases absent
      · rintro ⟨⟩
        next held =>
          rw [if_pos held]
          exact List.mem_cons_self
  | seq first second left right =>
      rw [run, List.mem_flatMap]
      constructor
      · rintro ⟨middle, reached, stops⟩
        exact .seq (left.mp reached) (right.mp stops)
      · rintro ⟨⟩
        next middle reached stops => exact ⟨middle, left.mpr reached, right.mpr stops⟩
  | alt first second left right =>
      rw [run, List.mem_append, left, right]
      constructor
      · rintro (taken | taken)
        · exact .left taken
        · exact .right taken
      · rintro ⟨⟩
        · next taken => exact .inl taken
        · next taken => exact .inr taken
  | many accepts => exact mem_runMany

/-! ## Derived patterns -/

/-- The pattern or nothing. -/
def optional (pattern : Pattern) : Pattern := .alt pattern .empty

/-- One character of a class or more. -/
def atLeastOne (accepts : Char → Bool) : Pattern := .seq (.one accepts) (.many accepts)

/-- As many characters of a class. -/
def exactly (accepts : Char → Bool) : Nat → Pattern
  | 0 => .empty
  | count + 1 => .seq (.one accepts) (exactly accepts count)

/-- The characters one after the other, up to what is alike. -/
def literal (alike : Char → Char → Bool) : List Char → Pattern
  | [] => .empty
  | expected :: text => .seq (.one (alike expected)) (literal alike text)

/-- A character as it is. -/
def exact (char : Char) : Pattern := .one fun other => other = char

/-- One of some patterns. -/
def oneOf : List Pattern → Pattern
  | [] => .one fun _ => false
  | pattern :: patterns => .alt pattern (oneOf patterns)

/-! ## What a pattern accepts -/

/-- The pattern can read these characters and no more, between these. -/
def Accepts (pattern : Pattern) (before read rest : List Char) : Prop :=
  pattern.Matches ⟨before, read ++ rest⟩ ⟨read.reverse ++ before, rest⟩

/-- What two patterns accept one after the other, their sequence accepts. -/
theorem Accepts.seq {first second : Pattern} {before read more rest : List Char}
    (left : first.Accepts before read (more ++ rest))
    (right : second.Accepts (read.reverse ++ before) more rest) :
    (Pattern.seq first second).Accepts before (read ++ more) rest := by
  unfold Accepts at *
  rw [List.append_assoc, List.reverse_append, List.append_assoc]
  exact .seq left right

/-- The empty pattern reads nothing. -/
theorem accepts_empty {before rest : List Char} : Pattern.empty.Accepts before [] rest := .empty _

/-- A look reads nothing where its condition holds. -/
theorem accepts_look {holds : Place → Bool} {before rest : List Char}
    (held : holds ⟨before, rest⟩ = true) : (Pattern.look holds).Accepts before [] rest := .look held

/-- A character class reads a character of it. -/
theorem accepts_one {accepts : Char → Bool} {before rest : List Char} {char : Char}
    (accepted : accepts char = true) : (Pattern.one accepts).Accepts before [char] rest :=
  .one accepted

theorem accepts_exact {before rest : List Char} (char : Char) :
    (exact char).Accepts before [char] rest := accepts_one (decide_eq_true rfl)

/-- A repetition reads any run of its characters. -/
theorem accepts_many {accepts : Char → Bool} {before read rest : List Char}
    (accepted : ∀ char ∈ read, accepts char = true) :
    (Pattern.many accepts).Accepts before read rest := .many accepted

/-- An optional pattern may be left out, -/
theorem accepts_skipped {pattern : Pattern} {before rest : List Char} :
    pattern.optional.Accepts before [] rest := .right accepts_empty

/-- or be taken. -/
theorem accepts_taken {pattern : Pattern} {before read rest : List Char}
    (taken : pattern.Accepts before read rest) : pattern.optional.Accepts before read rest :=
  .left taken

/-- `+` reads any run of its characters that is not empty. -/
theorem accepts_atLeastOne {accepts : Char → Bool} {before read rest : List Char}
    (given : read ≠ []) (accepted : ∀ char ∈ read, accepts char = true) :
    (Pattern.atLeastOne accepts).Accepts before read rest := by
  cases read with
  | nil => exact absurd rfl given
  | cons char read =>
      rw [List.forall_mem_cons] at accepted
      rw [← List.singleton_append]
      exact (accepts_one accepted.1).seq (accepts_many accepted.2)

/-- `{n}` reads any run of that length. -/
theorem accepts_exactly {accepts : Char → Bool} {count : Nat} {before read rest : List Char}
    (long : read.length = count) (accepted : ∀ char ∈ read, accepts char = true) :
    (Pattern.exactly accepts count).Accepts before read rest := by
  induction read generalizing before count with
  | nil =>
      cases long
      exact accepts_empty
  | cons char read ih =>
      cases long
      rw [List.forall_mem_cons] at accepted
      rw [← List.singleton_append]
      exact (accepts_one accepted.1).seq (ih rfl accepted.2)

/-- A literal reads a text whose characters are like its own. -/
theorem accepts_literal {alike : Char → Char → Bool} {text before read rest : List Char}
    (same : List.Forall₂ (fun expected char => alike expected char = true) text read) :
    (Pattern.literal alike text).Accepts before read rest := by
  induction same generalizing before with
  | nil => exact accepts_empty
  | @cons expected char text read first _ ih =>
      have begins : (Pattern.one (alike expected)).Accepts before [char] (read ++ rest) :=
        accepts_one first
      exact begins.seq ih

/-- A choice reads what one of its patterns does. -/
theorem accepts_oneOf {pattern : Pattern} {patterns : List Pattern} {before read rest : List Char}
    (among : pattern ∈ patterns) (taken : pattern.Accepts before read rest) :
    (Pattern.oneOf patterns).Accepts before read rest := by
  induction patterns with
  | nil => cases among
  | cons first rest ih =>
      rcases List.mem_cons.mp among with rfl | later
      · exact .left taken
      · exact .right (ih later)

/-- What a pattern leads to is what it reads. -/
theorem Matches.reads {pattern : Pattern} {start stop : Place}
    (matched : pattern.Matches start stop) :
    ∃ read, start.after = read ++ stop.after ∧ stop.before = read.reverse ++ start.before := by
  induction matched with
  | empty place => exact ⟨[], rfl, rfl⟩
  | @one accepts before after char accepted => exact ⟨[char], rfl, rfl⟩
  | look held => exact ⟨[], rfl, rfl⟩
  | @seq first second start middle stop left right fromStart fromMiddle =>
      rcases fromStart with ⟨read, after, before⟩
      rcases fromMiddle with ⟨more, further, earlier⟩
      refine ⟨read ++ more, ?_, ?_⟩
      · rw [after, further, List.append_assoc]
      · rw [earlier, before, List.reverse_append, List.append_assoc]
  | left taken ih => exact ih
  | right taken ih => exact ih
  | @many accepts before read rest accepted => exact ⟨read, rfl, rfl⟩

/-- A match is of what was read between its two places. -/
theorem Accepts.of_matches {pattern : Pattern} {before after : List Char} {stop : Place}
    (matched : pattern.Matches ⟨before, after⟩ stop) :
    ∃ read, after = read ++ stop.after ∧ stop = ⟨read.reverse ++ before, stop.after⟩ ∧
      pattern.Accepts before read stop.after := by
  rcases stop with ⟨reached, rest⟩
  rcases matched.reads with ⟨read, same, back⟩
  dsimp only at same back
  subst same back
  exact ⟨read, rfl, rfl, matched⟩

/-- A sequence reads what its patterns do one after the other. -/
theorem accepts_seq_iff {first second : Pattern} {before read rest : List Char} :
    (Pattern.seq first second).Accepts before read rest ↔ ∃ front back, read = front ++ back ∧
      first.Accepts before front (back ++ rest) ∧
        second.Accepts (front.reverse ++ before) back rest := by
  constructor
  · intro accepted
    rcases List.mem_flatMap.mp (mem_run.mpr accepted) with ⟨middle, reached, stops⟩
    rcases Accepts.of_matches (mem_run.mp reached) with ⟨front, parts, place, left⟩
    rw [place] at stops
    rcases Accepts.of_matches (mem_run.mp stops) with ⟨back, further, same, right⟩
    rw [Place.mk.injEq] at same
    rw [← same.2] at further right
    rw [further, ← List.append_assoc] at parts
    exact ⟨front, back, List.append_cancel_right parts, further ▸ left, right⟩
  · rintro ⟨front, back, rfl, left, right⟩
    exact left.seq right

/-- A look reads nothing, and only where its condition holds. -/
theorem accepts_look_iff {holds : Place → Bool} {before read rest : List Char} :
    (Pattern.look holds).Accepts before read rest ↔ read = [] ∧ holds ⟨before, rest⟩ = true := by
  constructor
  · intro accepted
    have tried := mem_run.mpr accepted
    rw [run] at tried
    split at tried
    · next held =>
        have same := List.mem_singleton.mp tried
        rw [Place.mk.injEq] at same
        have nothing : read = [] := List.self_eq_append_left.mp same.2
        subst nothing
        exact ⟨rfl, held⟩
    · cases tried
  · rintro ⟨rfl, held⟩
    exact accepts_look held

/-- A character class reads one character, of the class. -/
theorem accepts_one_iff {accepts : Char → Bool} {before read rest : List Char} :
    (Pattern.one accepts).Accepts before read rest ↔
      ∃ char, read = [char] ∧ accepts char = true := by
  constructor
  · intro accepted
    cases after : read ++ rest with
    | nil =>
        rw [Accepts, after] at accepted
        cases accepted
    | cons char tail =>
        rw [Accepts, after] at accepted
        generalize stops : Place.mk (read.reverse ++ before) rest = stop at accepted
        cases accepted with
        | one accepted =>
            rw [Place.mk.injEq] at stops
            rw [stops.2, ← List.singleton_append] at after
            exact ⟨char, List.append_cancel_right after, accepted⟩
  · rintro ⟨char, rfl, accepted⟩
    exact accepts_one accepted

/-- A literal reads nothing but texts whose characters are like its own. -/
theorem accepts_literal_iff {alike : Char → Char → Bool} {text before read rest : List Char} :
    (Pattern.literal alike text).Accepts before read rest ↔
      List.Forall₂ (fun expected char => alike expected char = true) text read := by
  constructor
  · intro accepted
    induction text generalizing before read with
    | nil =>
        have tried := List.mem_singleton.mp (mem_run.mpr accepted)
        rw [Place.mk.injEq] at tried
        rw [List.self_eq_append_left.mp tried.2]
        exact .nil
    | cons expected text ih =>
        rcases accepts_seq_iff.mp accepted with ⟨front, back, rfl, first, others⟩
        rcases accepts_one_iff.mp first with ⟨char, rfl, same⟩
        exact .cons same (ih others)
  · exact accepts_literal

/-- An alternative reads what either pattern does. -/
theorem accepts_alt_iff {first second : Pattern} {before read rest : List Char} :
    (Pattern.alt first second).Accepts before read rest ↔
      first.Accepts before read rest ∨ second.Accepts before read rest := by
  rw [Accepts, ← mem_run, run, List.mem_append, mem_run, mem_run]
  rfl

/-- A choice reads nothing but what one of its patterns does. -/
theorem accepts_oneOf_iff {patterns : List Pattern} {before read rest : List Char} :
    (Pattern.oneOf patterns).Accepts before read rest ↔
      ∃ pattern ∈ patterns, pattern.Accepts before read rest := by
  constructor
  · intro accepted
    induction patterns with
    | nil =>
        rcases accepts_one_iff.mp accepted with ⟨char, -, never⟩
        cases never
    | cons pattern patterns ih =>
        rcases accepts_alt_iff.mp accepted with taken | later
        · exact ⟨pattern, List.mem_cons_self, taken⟩
        · rcases ih later with ⟨other, among, taken⟩
          exact ⟨other, List.mem_cons_of_mem _ among, taken⟩
  · rintro ⟨pattern, among, taken⟩
    exact accepts_oneOf among taken

/-! ## Searching -/

/-- The pattern matches at some place from here on. -/
def foundFrom (pattern : Pattern) (before : List Char) : List Char → Bool
  | [] => !(pattern.run ⟨before, []⟩).isEmpty
  | char :: after =>
      !(pattern.run ⟨before, char :: after⟩).isEmpty || foundFrom pattern (char :: before) after

/-- `re.search` finds something. -/
def found (pattern : Pattern) (text : String) : Bool := pattern.foundFrom [] text.toList

/-- `search` finds a match further on. -/
theorem foundFrom_of_matches {pattern : Pattern} {before read rest : List Char} {stop : Place}
    (matched : pattern.Matches ⟨read.reverse ++ before, rest⟩ stop) :
    pattern.foundFrom before (read ++ rest) = true := by
  induction read generalizing before with
  | nil =>
      have tried : (pattern.run ⟨before, rest⟩).isEmpty = false :=
        List.isEmpty_eq_false_iff.mpr (List.ne_nil_of_mem (mem_run.mpr matched))
      cases rest with
      | nil => rw [List.nil_append, foundFrom, tried, Bool.not_false]
      | cons char rest => rw [List.nil_append, foundFrom, tried, Bool.not_false, Bool.true_or]
  | cons char read ih =>
      rw [List.reverse_cons, List.append_assoc] at matched
      have later : pattern.foundFrom (char :: before) (read ++ rest) = true := ih matched
      rw [List.cons_append, foundFrom, later, Bool.or_true]

/-- A try that comes to something is a match. -/
theorem matches_of_tried {pattern : Pattern} {place : Place}
    (tried : (!(pattern.run place).isEmpty) = true) : ∃ stop, pattern.Matches place stop := by
  rw [Bool.not_eq_true', List.isEmpty_eq_false_iff] at tried
  rcases List.exists_mem_of_ne_nil _ tried with ⟨stop, reached⟩
  exact ⟨stop, mem_run.mp reached⟩

/-- What `search` finds is a match somewhere in the text. -/
theorem matches_of_foundFrom {pattern : Pattern} {before text : List Char}
    (found : pattern.foundFrom before text = true) :
    ∃ front rest stop, text = front ++ rest ∧
      pattern.Matches ⟨front.reverse ++ before, rest⟩ stop := by
  induction text generalizing before with
  | nil =>
      rcases matches_of_tried found with ⟨stop, matched⟩
      exact ⟨[], [], stop, rfl, matched⟩
  | cons char text ih =>
      rw [foundFrom, Bool.or_eq_true] at found
      rcases found with tried | later
      · rcases matches_of_tried tried with ⟨stop, matched⟩
        exact ⟨[], char :: text, stop, rfl, matched⟩
      · rcases ih later with ⟨front, rest, stop, rfl, matched⟩
        refine ⟨char :: front, rest, stop, rfl, ?_⟩
        rwa [List.reverse_cons, List.append_assoc]

/-- A search finds whatever is accepted somewhere. -/
theorem found_of_accepts {pattern : Pattern} {text : String} {front read rest : List Char}
    (parts : text.toList = front ++ (read ++ rest))
    (accepted : pattern.Accepts front.reverse read rest) : pattern.found text = true := by
  rw [found, parts]
  unfold Accepts at accepted
  rw [← List.append_nil front.reverse] at accepted
  exact foundFrom_of_matches accepted

/-- A search finds something exactly when the pattern accepts some of the text. -/
theorem found_iff {pattern : Pattern} {text : String} :
    pattern.found text = true ↔ ∃ front read rest, text.toList = front ++ (read ++ rest) ∧
      pattern.Accepts front.reverse read rest := by
  constructor
  · intro found
    rcases matches_of_foundFrom found with ⟨front, after, stop, parts, matched⟩
    rw [List.append_nil] at matched
    rcases Accepts.of_matches matched with ⟨read, rfl, -, accepted⟩
    exact ⟨front, read, stop.after, parts, accepted⟩
  · rintro ⟨front, read, rest, parts, accepted⟩
    exact found_of_accepts parts accepted

end Pattern

/-! ## Classes -/

/-- The character tables of the engine: `\w`, `\d` and `\s`, and what is the same character when
case is ignored. -/
structure Tables where
  word : Char → Bool
  digit : Char → Bool
  space : Char → Bool
  alike : Char → Char → Bool

/-- `\b`: a word begins or ends here. -/
def Tables.boundary (tables : Tables) (place : Place) : Bool :=
  (place.before.head?.any tables.word) != (place.after.head?.any tables.word)

namespace Tables

variable (tables : Tables)

/-- The pattern with a word boundary on both sides. -/
def standing (pattern : Pattern) : Pattern :=
  .seq (.look tables.boundary) (.seq pattern (.look tables.boundary))

/-- The text, case ignored. -/
def ignoringCase (text : String) : Pattern := .literal tables.alike text.toList

/-- The characters spell the phrase, up to case. -/
def Spells (phrase : String) (read : List Char) : Prop :=
  List.Forall₂ (fun expected char => tables.alike expected char = true) phrase.toList read

/-- Some of the text is the phrase, up to case, and begins and ends with a word. -/
inductive Stands (phrase : String) (text : List Char) : Prop
  | intro (front middle back : List Char) (parts : text = front ++ (middle ++ back))
      (same : tables.Spells phrase middle)
      (begins : tables.boundary ⟨front.reverse, middle ++ back⟩ = true)
      (ends : tables.boundary ⟨middle.reverse ++ front.reverse, back⟩ = true)

end Tables

/-- `[A-Za-z]`. -/
def isLetter (char : Char) : Bool := ('a' ≤ char && char ≤ 'z') || ('A' ≤ char && char ≤ 'Z')

/-- The tables of plain ASCII. -/
def ascii : Tables where
  word char := isLetter char || char.isDigit || char = '_'
  digit := Char.isDigit
  space char := char = ' ' || ('\t' ≤ char && char ≤ '\r') || ('\x1c' ≤ char && char ≤ '\x1f')
  alike expected char := expected.toLower = char.toLower

end Regex
