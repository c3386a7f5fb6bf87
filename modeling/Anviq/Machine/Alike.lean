import Anviq.Machine.Dict
import Mathlib.Data.List.Forall2

/-! # Dictionaries alike

Two dictionaries are alike when their items correspond, in order, under a relation of
keys and a relation of values. Where the relation of keys pairs every key with at most
one, the operations keep dictionaries alike.
-/

namespace Dict

variable {Key Key' Value Value' : Type}

/-- The items correspond. -/
def Alike (keys : Key → Key' → Prop) (values : Value → Value' → Prop) (left : Dict Key Value)
    (right : Dict Key' Value') : Prop :=
  List.Forall₂ (fun item item' => keys item.1 item'.1 ∧ values item.2 item'.2)
    left.items right.items

variable {keys : Key → Key' → Prop} {values : Value → Value' → Prop} {left : Dict Key Value}
  {right : Dict Key' Value'} {key : Key} {key' : Key'} {value : Value} {value' : Value'}

/-- Keys are the same on one side when they are on the other. -/
theorem same_iff (unique : Relator.BiUnique keys) {other : Key} {other' : Key'}
    (named : keys key key') (also : keys other other') : other = key ↔ other' = key' := by
  constructor
  · intro same
    exact unique.2 (same ▸ also) named
  · intro same
    exact unique.1 (same ▸ also) named

namespace Alike

theorem empty : Alike keys values (.empty : Dict Key Value) (.empty : Dict Key' Value') := .nil

/-- Dicts that are alike have one size. -/
theorem size (alike : Alike keys values left right) : left.size = right.size :=
  alike.length_eq

/-- A wider correspondence relates what a narrower one does. -/
theorem mono {keys' : Key → Key' → Prop} {values' : Value → Value' → Prop}
    (alike : Alike keys values left right) (wider : ∀ key key', keys key key' → keys' key key')
    (looser : ∀ value value', values value value' → values' value value') :
    Alike keys' values' left right :=
  alike.imp fun _ _ same => ⟨wider _ _ same.1, looser _ _ same.2⟩

theorem items_eq_nil (alike : Alike keys values left right) :
    left.items = [] ↔ right.items = [] := by
  rw [← List.length_eq_zero_iff, ← List.length_eq_zero_iff, alike.length_eq]

variable [DecidableEq Key] [DecidableEq Key']

/-- A key has no value on either side, or corresponding ones. -/
theorem get? (unique : Relator.BiUnique keys) (alike : Alike keys values left right)
    (named : keys key key') : (left.get? key = none ∧ right.get? key' = none) ∨
      ∃ value value', left.get? key = some value ∧ right.get? key' = some value' ∧
        values value value' := by
  have found : ∀ (items : List (Key × Value)) (items' : List (Key' × Value')),
      List.Forall₂ (fun item item' => keys item.1 item'.1 ∧ values item.2 item'.2) items items' →
        ((items.find? fun item => item.1 = key) = none ∧
            (items'.find? fun item => item.1 = key') = none) ∨
          ∃ item item', (items.find? fun item => item.1 = key) = some item ∧
            (items'.find? fun item => item.1 = key') = some item' ∧ values item.2 item'.2 := by
    intro items items' corresponds
    induction corresponds with
    | nil => exact Or.inl ⟨rfl, rfl⟩
    | @cons item item' items items' head _ ih =>
        have same := same_iff unique named head.1
        by_cases here : item.1 = key
        · have there := same.mp here
          exact Or.inr ⟨item, item', List.find?_cons_of_pos (by simpa using here),
            List.find?_cons_of_pos (by simpa using there), head.2⟩
        · have there := mt same.mpr here
          rw [List.find?_cons_of_neg (by simpa using here),
            List.find?_cons_of_neg (by simpa using there)]
          exact ih
  obtain ⟨missing, missing'⟩ | ⟨item, item', here, there, same⟩ := found _ _ alike
  · exact Or.inl ⟨congrArg (Option.map Prod.snd) missing, congrArg (Option.map Prod.snd) missing'⟩
  · exact Or.inr ⟨item.2, item'.2, congrArg (Option.map Prod.snd) here,
      congrArg (Option.map Prod.snd) there, same⟩

/-- Corresponding keys are in both or in neither. -/
theorem mem_keys (unique : Relator.BiUnique keys) (alike : Alike keys values left right)
    (named : keys key key') : key ∈ left.keys ↔ key' ∈ right.keys := by
  rw [Dict.mem_keys, Dict.mem_keys]
  obtain ⟨missing, missing'⟩ | ⟨value, value', here, there, -⟩ := alike.get? unique named
  · simp [missing, missing']
  · simp [here, there]

/-- Erasing corresponding keys keeps dicts alike, -/
theorem erase (unique : Relator.BiUnique keys) (alike : Alike keys values left right)
    (named : keys key key') : Alike keys values (left.erase key) (right.erase key') := by
  have filtered : ∀ (items : List (Key × Value)) (items' : List (Key' × Value')),
      List.Forall₂ (fun item item' => keys item.1 item'.1 ∧ values item.2 item'.2) items items' →
        List.Forall₂ (fun item item' => keys item.1 item'.1 ∧ values item.2 item'.2)
          (items.filter fun item => item.1 ≠ key) (items'.filter fun item => item.1 ≠ key') := by
    intro items items' corresponds
    induction corresponds with
    | nil => exact .nil
    | @cons item item' items items' head _ ih =>
        have same := same_iff unique named head.1
        by_cases here : item.1 = key
        · have there := same.mp here
          rw [List.filter_cons_of_neg (by simpa using here),
            List.filter_cons_of_neg (by simpa using there)]
          exact ih
        · have there := mt same.mpr here
          rw [List.filter_cons_of_pos (by simpa using here),
            List.filter_cons_of_pos (by simpa using there)]
          exact .cons head ih
  exact filtered _ _ alike

/-- and so does pushing, -/
theorem push (unique : Relator.BiUnique keys) (alike : Alike keys values left right)
    (named : keys key key') (same : values value value') :
    Alike keys values (left.push key value) (right.push key' value') := by
  unfold Alike
  rw [push_items, push_items]
  exact List.rel_append (alike.erase unique named) (.cons ⟨named, same⟩ .nil)

/-- replacing, -/
theorem replace (unique : Relator.BiUnique keys) (alike : Alike keys values left right)
    (named : keys key key') (same : values value value') :
    Alike keys values (left.replace key value) (right.replace key' value') := by
  refine List.rel_map ?_ alike
  intro item item' head
  by_cases here : item.1 = key
  · have there := (same_iff unique named head.1).mp here
    simp only [here, there, ↓reduceIte]
    exact ⟨named, same⟩
  · have there := mt (same_iff unique named head.1).mpr here
    simp only [here, there, ↓reduceIte]
    exact head

/-- assigning, -/
theorem assign (unique : Relator.BiUnique keys) (alike : Alike keys values left right)
    (named : keys key key') (same : values value value') :
    Alike keys values (left.assign key value) (right.assign key' value') := by
  unfold Dict.assign
  by_cases present : key ∈ left.keys
  · rw [if_pos present, if_pos ((alike.mem_keys unique named).mp present)]
    exact alike.replace unique named same
  · rw [if_neg present, if_neg (mt (alike.mem_keys unique named).mpr present)]
    exact alike.push unique named same

/-- and moving to the end. -/
theorem moveToEnd (unique : Relator.BiUnique keys) (alike : Alike keys values left right)
    (named : keys key key') : Alike keys values (left.moveToEnd key) (right.moveToEnd key') := by
  unfold Dict.moveToEnd
  obtain ⟨missing, missing'⟩ | ⟨value, value', here, there, same⟩ := alike.get? unique named
  · rw [missing, missing']
    exact alike
  · rw [here, there]
    exact alike.push unique named same

end Alike

end Dict
