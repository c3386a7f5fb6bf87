import Anviq.Text.Regex

/-! # Matches one after another

What `re.findall` gives: the texts that a pattern reads, each search beginning where the last match
stopped. A pattern whose characters all lie in a class never reads across the others, so that what
it finds in a text is what it finds in the stretches of the class, one after the other.
-/

namespace Regex

namespace Pattern

/-! ## Finding all -/

/-- The texts that are read from here on, after `skip` more characters that have been read. The
pattern reads something wherever it matches. -/
def tokensFrom (pattern : Pattern) : Nat → List Char → List Char → List (List Char)
  | _, _, [] => []
  | skip + 1, before, char :: after => tokensFrom pattern skip (char :: before) after
  | 0, before, char :: after =>
      match pattern.run ⟨before, char :: after⟩ with
      | [] => tokensFrom pattern 0 (char :: before) after
      | stop :: _ =>
          let length := (char :: after).length - stop.after.length
          (char :: after).take length :: tokensFrom pattern (length - 1) (char :: before) after

/-- The texts that `re.findall` gives. -/
def tokens (pattern : Pattern) (text : List Char) : List (List Char) := pattern.tokensFrom 0 [] text

variable {pattern : Pattern} {before text : List Char} {skip : Nat}

/-- Nothing is found in a text that is skipped whole. -/
theorem tokensFrom_skipped (enough : text.length ≤ skip) :
    pattern.tokensFrom skip before text = [] := by
  induction text generalizing skip before with
  | nil => rw [tokensFrom]
  | cons char text ih =>
      cases skip with
      | zero => cases enough
      | succ skip => exact ih (Nat.le_of_succ_le_succ enough)

/-- A match that takes the whole text is the only one. -/
theorem tokens_whole {stop : Place} (whole : (pattern.run ⟨[], text⟩).head? = some stop)
    (ends : stop.after = []) (given : text ≠ []) : pattern.tokens text = [text] := by
  cases text with
  | nil => exact absurd rfl given
  | cons char text =>
      rw [tokens, tokensFrom]
      cases reached : pattern.run ⟨[], char :: text⟩ with
      | nil =>
          rw [reached] at whole
          cases whole
      | cons first others =>
          rw [reached] at whole
          cases whole
          dsimp only
          have enough : text.length ≤ (char :: text).length - 1 := Nat.le_refl _
          rw [ends, List.length_nil, Nat.sub_zero, List.take_length, tokensFrom_skipped enough]

end Pattern

/-! ## Classes of characters -/

/-- The place in a longer text. -/
def Place.within (place : Place) (before tail : List Char) : Place :=
  ⟨place.before ++ before, place.after ++ tail⟩

/-- The text does not begin in the class. -/
def Outside (inside : Char → Bool) (tail : List Char) : Prop :=
  ∀ char ∈ tail.head?, inside char = false

namespace Pattern

/-- The pattern reads characters of the class, and does not look around. -/
def Confined (inside : Char → Bool) : Pattern → Prop
  | empty => True
  | one accepts => ∀ char, accepts char = true → inside char = true
  | look _ => False
  | seq first second => first.Confined inside ∧ second.Confined inside
  | alt first second => first.Confined inside ∧ second.Confined inside
  | many accepts => ∀ char, accepts char = true → inside char = true

/-- The pattern reads something wherever it matches. -/
def Reading (pattern : Pattern) : Prop :=
  ∀ place stop, stop ∈ pattern.run place → stop.after.length < place.after.length

variable {pattern : Pattern} {inside : Char → Bool} {before front tail text : List Char}
  {skip : Nat}

/-- A character class reads something. -/
theorem reading_one (accepts : Char → Bool) : (Pattern.one accepts).Reading := by
  rintro ⟨before, after⟩ stop reached
  rw [run] at reached
  cases after with
  | nil => cases reached
  | cons char after =>
      dsimp only at reached
      split at reached
      · rw [List.mem_singleton.mp reached]
        exact Nat.lt_succ_self _
      · cases reached

/-- A sequence reads something if its first pattern does. -/
theorem Reading.seq {first : Pattern} (reading : first.Reading) (second : Pattern) :
    (Pattern.seq first second).Reading := by
  intro place stop reached
  rcases List.mem_flatMap.mp reached with ⟨middle, left, right⟩
  rcases (mem_run.mp right).reads with ⟨read, parts, -⟩
  refine Nat.lt_of_le_of_lt ?_ (reading place middle left)
  rw [parts, List.length_append]
  exact Nat.le_add_left ..

/-- A repetition does not see beyond characters it does not accept. -/
theorem runMany_within {accepts : Char → Bool}
    (confined : ∀ char, accepts char = true → inside char = true) (outside : Outside inside tail)
    {earlier after : List Char} :
    runMany accepts (earlier ++ before) (after ++ tail) =
      (runMany accepts earlier after).map fun stop => stop.within before tail := by
  induction after generalizing earlier with
  | nil =>
      rw [List.nil_append]
      cases tail with
      | nil => rfl
      | cons char tail =>
          have refused : ¬ accepts char = true := fun accepted =>
            absurd (confined char accepted) (Bool.eq_false_iff.mp (outside char rfl))
          have stays : runMany accepts (earlier ++ before) (char :: tail) =
              [⟨earlier ++ before, char :: tail⟩] := if_neg refused
          rw [stays]
          rfl
  | cons char after ih =>
      rw [List.cons_append, runMany, runMany]
      split
      · rw [List.map_append, ← ih, List.cons_append]
        rfl
      · rfl

/-- What surrounds a stretch of the class does not matter to a pattern that is confined to it. -/
theorem run_within (confined : pattern.Confined inside) (outside : Outside inside tail)
    (place : Place) :
    pattern.run (place.within before tail) =
      (pattern.run place).map fun stop => stop.within before tail := by
  induction pattern generalizing place with
  | empty => rfl
  | one accepts =>
      rcases place with ⟨earlier, after⟩
      cases after with
      | nil =>
          cases tail with
          | nil => rfl
          | cons char tail =>
              have refused : ¬ accepts char = true := fun accepted =>
                absurd (confined char accepted) (Bool.eq_false_iff.mp (outside char rfl))
              exact if_neg refused
      | cons char after =>
          rw [Place.within, List.cons_append, run, run]
          dsimp only
          split <;> rfl
  | look holds => exact confined.elim
  | seq first second left right =>
      rw [run, run, left confined.1, List.flatMap_map, List.map_flatMap]
      exact List.flatMap_congr fun stop _ => right confined.2 stop
  | alt first second left right =>
      rw [run, run, left confined.1, right confined.2, List.map_append]
  | many accepts => exact runMany_within confined outside

/-- A search stops at a character outside of the class. -/
theorem tokensFrom_append (confined : pattern.Confined inside) (reading : pattern.Reading)
    (outside : Outside inside tail) {earlier : List Char} (skipped : skip ≤ front.length) :
    pattern.tokensFrom skip (earlier ++ before) (front ++ tail) =
      pattern.tokensFrom skip earlier front ++
        pattern.tokensFrom 0 (front.reverse ++ (earlier ++ before)) tail := by
  induction front generalizing skip earlier with
  | nil =>
      rw [Nat.le_zero.mp skipped, tokensFrom]
      rfl
  | cons char front ih =>
      have around : (char :: earlier) ++ before = char :: (earlier ++ before) := rfl
      have reversed : (char :: front).reverse ++ (earlier ++ before) =
          front.reverse ++ ((char :: earlier) ++ before) := by
        rw [List.reverse_cons, List.append_assoc, around]
        rfl
      rw [reversed, List.cons_append]
      cases skip with
      | succ skip =>
          rw [tokensFrom, tokensFrom, ← around]
          exact ih (Nat.le_of_succ_le_succ skipped)
      | zero =>
          have same : pattern.run ⟨earlier ++ before, char :: (front ++ tail)⟩ =
              (pattern.run ⟨earlier, char :: front⟩).map fun stop => stop.within before tail :=
            run_within confined outside ⟨earlier, char :: front⟩
          rw [tokensFrom, tokensFrom, same]
          cases reached : pattern.run ⟨earlier, char :: front⟩ with
          | nil =>
              rw [List.map_nil, ← around]
              exact ih (Nat.zero_le _)
          | cons stop others =>
              have forward : stop.after.length < front.length + 1 :=
                reading ⟨earlier, char :: front⟩ stop (reached ▸ List.mem_cons_self)
              have longer : (char :: (front ++ tail)).length - (stop.after ++ tail).length =
                  (char :: front).length - stop.after.length := by
                simp only [List.length_cons, List.length_append]
                omega
              have taken : (char :: (front ++ tail)).take
                  ((char :: front).length - stop.after.length) =
                    (char :: front).take ((char :: front).length - stop.after.length) := by
                rw [← List.cons_append, List.take_append_of_le_length (Nat.sub_le ..)]
              rw [List.map_cons]
              dsimp only [Place.within]
              rw [longer, taken, List.cons_append, ← around]
              refine congrArg _ (ih ?_)
              simp only [List.length_cons]
              omega

/-- What is before a text does not matter. -/
theorem tokensFrom_before (confined : pattern.Confined inside) (reading : pattern.Reading) :
    pattern.tokensFrom 0 before text = pattern.tokens text := by
  have nothing : Outside inside [] := fun _ absent => by cases absent
  have whole : pattern.tokensFrom 0 ([] ++ before) (text ++ []) = pattern.tokensFrom 0 [] text ++
      pattern.tokensFrom 0 (text.reverse ++ ([] ++ before)) [] :=
    tokensFrom_append confined reading nothing (Nat.zero_le _)
  rwa [List.append_nil, tokensFrom, List.append_nil] at whole

/-- Between two stretches nothing is found. -/
theorem tokens_separated (confined : pattern.Confined inside) (reading : pattern.Reading)
    {char : Char} (outside : inside char = false) {back : List Char} :
    pattern.tokens (front ++ char :: back) = pattern.tokens front ++ pattern.tokens back := by
  have ends : Outside inside (char :: back) := by
    rintro other ⟨⟩
    exact outside
  have apart : pattern.tokensFrom 0 ([] ++ []) (front ++ char :: back) =
      pattern.tokensFrom 0 [] front ++
        pattern.tokensFrom 0 (front.reverse ++ ([] ++ [])) (char :: back) :=
    tokensFrom_append confined reading ends (Nat.zero_le _)
  rw [List.append_nil, List.append_nil] at apart
  have nowhere : pattern.run ⟨front.reverse, char :: back⟩ = [] := by
    have same : pattern.run ⟨front.reverse ++ [], char :: back⟩ = _ :=
      run_within confined ends ⟨front.reverse, []⟩
    rw [List.append_nil] at same
    rw [same, List.map_eq_nil_iff]
    cases reached : pattern.run ⟨front.reverse, []⟩ with
    | nil => rfl
    | cons stop others =>
        have forward := reading ⟨front.reverse, []⟩ stop (reached ▸ List.mem_cons_self)
        cases forward
  rw [tokens, apart, tokensFrom, nowhere]
  exact congrArg (pattern.tokens front ++ ·) (tokensFrom_before confined reading)

/-- The stretches of a class in a text. -/
def stretches (inside : Char → Bool) (text : List Char) : List (List Char) :=
  text.splitOnP fun char => !inside char

/-- **What is found in a text is found in its stretches**, one after the other. -/
theorem tokens_stretches (confined : pattern.Confined inside) (reading : pattern.Reading) :
    pattern.tokens text = (stretches inside text).flatMap pattern.tokens := by
  suffices all : ∀ first, (∀ char ∈ first, inside char = true) →
      pattern.tokens (first ++ text) =
        (stretches inside (first ++ text)).flatMap pattern.tokens from
    all [] fun _ absent => by cases absent
  induction text with
  | nil =>
      intro first within
      have single : stretches inside (first ++ []) = [first] := by
        rw [List.append_nil]
        exact List.splitOnP_eq_singleton fun char among => by rw [within char among, Bool.not_true]
      rw [single, List.flatMap_singleton, List.append_nil]
  | cons char text ih =>
      intro first within
      cases kind : inside char with
      | true =>
          have longer : first ++ char :: text = (first ++ [char]) ++ text := by simp
          rw [longer]
          refine ih (first ++ [char]) (List.forall_mem_append.mpr ⟨within, ?_⟩)
          exact List.forall_mem_singleton.mpr kind
      | false =>
          have split : stretches inside (first ++ char :: text) = first :: stretches inside text :=
            List.splitOnP_append_cons_of_forall_mem
              (fun other among => by rw [within other among, Bool.not_true]) char
              (by rw [kind, Bool.not_false]) text
          rw [split, List.flatMap_cons, tokens_separated confined reading kind]
          exact congrArg _ (ih [] fun _ absent => by cases absent)

/-- What is found stands in the text, and the pattern accepts it. -/
theorem mem_tokensFrom {token : List Char} (found : token ∈ pattern.tokensFrom skip before text) :
    ∃ front rest, text = front ++ (token ++ rest) ∧
      pattern.Accepts (front.reverse ++ before) token rest := by
  induction text generalizing skip before with
  | nil =>
      rw [tokensFrom] at found
      cases found
  | cons char text ih =>
      have later {skip : Nat} (among : token ∈ pattern.tokensFrom skip (char :: before) text) :
          ∃ front rest, char :: text = front ++ (token ++ rest) ∧
            pattern.Accepts (front.reverse ++ before) token rest := by
        rcases ih among with ⟨front, rest, rfl, accepted⟩
        refine ⟨char :: front, rest, rfl, ?_⟩
        rwa [List.reverse_cons, List.append_assoc]
      cases skip with
      | succ skip => exact later found
      | zero =>
          rw [tokensFrom] at found
          split at found
          · exact later found
          · next stop others reached =>
              rcases List.mem_cons.mp found with rfl | among
              · have matched := mem_run.mp (reached ▸ List.mem_cons_self)
                rcases Accepts.of_matches matched with ⟨read, parts, -, accepted⟩
                have taken : (char :: text).take ((char :: text).length - stop.after.length) =
                    read := by
                  rw [parts, List.length_append, Nat.add_sub_cancel, List.take_left]
                exact ⟨[], stop.after, by rw [taken, parts]; rfl, by rwa [taken]⟩
              · exact later among

/-- Where every stretch that shows a mark of the class is found whole, and no other gives anything,
the stretches with a mark are what is found. -/
theorem tokens_clear (confined : pattern.Confined inside) (reading : pattern.Reading)
    {marked : Char → Bool}
    (silent : ∀ stretch, stretch.any marked = false → pattern.tokens stretch = [])
    (clear : ∀ stretch ∈ stretches inside text, stretch.any marked = true →
      pattern.tokens stretch = [stretch]) :
    pattern.tokens text = (stretches inside text).filter fun stretch => stretch.any marked := by
  rw [tokens_stretches confined reading]
  generalize stretches inside text = parts at clear
  induction parts with
  | nil => rfl
  | cons stretch parts ih =>
      rw [List.forall_mem_cons] at clear
      rw [List.flatMap_cons, ih clear.2, List.filter_cons]
      split
      · next shows => rw [clear.1 shows, List.singleton_append]
      · next hides => rw [silent stretch (Bool.eq_false_iff.mpr hides), List.nil_append]

/-! ## What is tried first -/

/-- The first stop the engine tries. -/
def Prefers (pattern : Pattern) (start stop : Place) : Prop := (pattern.run start).head? = some stop

/-- The empty pattern prefers to stay. -/
theorem prefers_empty (place : Place) : Pattern.empty.Prefers place place := rfl

/-- A character class goes on by one character. -/
theorem prefers_one {accepts : Char → Bool} {char : Char} {after : List Char}
    (accepted : accepts char = true) :
    (Pattern.one accepts).Prefers ⟨before, char :: after⟩ ⟨char :: before, after⟩ := by
  rw [Prefers, run]
  dsimp only
  rw [if_pos accepted]
  rfl

/-- A sequence prefers what its patterns do one after the other. -/
theorem Prefers.seq {first second : Pattern} {start middle stop : Place}
    (left : first.Prefers start middle) (right : second.Prefers middle stop) :
    (Pattern.seq first second).Prefers start stop := by
  rw [Prefers] at *
  rw [run]
  cases reached : first.run start with
  | nil =>
      rw [reached] at left
      cases left
  | cons taken others =>
      rw [reached] at left
      cases left
      rw [List.flatMap_cons, List.head?_append, right, Option.some_or]

/-- An alternative prefers its left pattern, -/
theorem Prefers.left {first second : Pattern} {start stop : Place}
    (taken : first.Prefers start stop) : (Pattern.alt first second).Prefers start stop := by
  rw [Prefers] at *
  rw [run, List.head?_append, taken, Option.some_or]

/-- and the right one where the left does not match. -/
theorem Prefers.right {first second : Pattern} {start stop : Place} (nowhere : first.run start = [])
    (taken : second.Prefers start stop) : (Pattern.alt first second).Prefers start stop := by
  rw [Prefers, run, nowhere, List.nil_append]
  exact taken

/-- A greedy repetition takes all that it can. -/
theorem prefers_many {accepts : Char → Bool} {read rest : List Char}
    (accepted : ∀ char ∈ read, accepts char = true) (refused : Outside accepts rest) :
    (Pattern.many accepts).Prefers ⟨before, read ++ rest⟩ ⟨read.reverse ++ before, rest⟩ := by
  rw [Prefers, run]
  induction read generalizing before with
  | nil =>
      cases rest with
      | nil => rfl
      | cons char rest =>
          rw [List.nil_append, runMany, if_neg (Bool.eq_false_iff.mp (refused char rfl))]
          rfl
  | cons char read ih =>
      rw [List.forall_mem_cons] at accepted
      have further : (runMany accepts (char :: before) (read ++ rest)).head? =
          some ⟨read.reverse ++ (char :: before), rest⟩ := ih accepted.2
      rw [List.cons_append, runMany, if_pos accepted.1, List.head?_append, further, Option.some_or,
        List.reverse_cons, List.append_assoc]
      rfl

end Pattern

end Regex
