import PreviewInstaller.Json.Reader
import PreviewInstaller.Proofs.Json.Token

set_option autoImplicit false

/-! # Reading what was printed

A value that has meaning throughout is read back from its text, so nothing is lost when it is sent
to another machine. -/

namespace PreviewInstaller.Json

/-- The machine goes through tokens. -/
def advanceAll? (state : State) (tokens : List Token) : Option State :=
  tokens.foldlM advance? state

theorem advanceAll?_cons {state next : State} {token : Token} {rest : List Token}
    (h : advance? state token = some next) :
    advanceAll? state (token :: rest) = advanceAll? next rest := by
  rw [advanceAll?, List.foldlM_cons, h]
  rfl

/-- Members as the machine holds them. -/
def heldMembers (members : List (String × Json)) : List (Option String × Json) :=
  members.map fun (key, value) => (some key, value)

theorem ofMembers_heldMembers (members : List (String × Json)) :
    ofMembers (heldMembers members) = .object members := by
  have hpure := List.mapM_pure (m := Option) (l := members) (f := id)
  rw [List.map_id] at hpure
  rw [ofMembers, heldMembers, List.mapM_map]
  simp only [Function.comp_def, Option.map_some]
  rw [show members.mapM (fun member => some (member.1, member.2)) = _ from hpure]
  rfl

/-- No element begins with the end of an array. -/
theorem advanceAll?_element (stack : List Frame) (value : Json) (others : List Json)
    (rest : List Token) :
    advanceAll? (.element stack) (tokensOfElements (value :: others) ++ rest) =
      advanceAll? (.value (.array [] :: stack)) (tokensOfElements (value :: others) ++ rest) := by
  cases others with
  | nil => cases value <;> rfl
  | cons next others => cases value <;> rfl

mutual

/-- The tokens of a value lead to the value. -/
theorem advanceAll?_tokensOf : (value : Json) → value.isReadable = true → (stack : List Frame) →
    (rest : List Token) → advanceAll? (.value stack) (tokensOf value ++ rest) =
      advanceAll? (.after value stack) rest
  | .null, _, _, _ => rfl
  | .bool _, _, _, _ => rfl
  | .number _, _, _, _ => rfl
  | .text _, _, _, _ => rfl
  | .array [], _, _, _ => rfl
  | .array (value :: others), h, stack, rest => by
    rw [tokensOf, List.cons_append, List.cons_append, List.append_assoc, List.singleton_append,
      advanceAll?_cons rfl, advanceAll?_element]
    exact advanceAll?_tokensOfElements (value :: others) (by simp) h [] stack rest
  | .object [], _, _, _ => rfl
  | .object ((key, value) :: others), h, stack, rest => by
    rw [tokensOf, List.cons_append, List.cons_append, List.append_assoc, List.singleton_append,
      advanceAll?_cons rfl]
    have hmembers :=
      advanceAll?_tokensOfMembers ((key, value) :: others) (by simp) h [] stack rest
    cases others with
    | nil => exact hmembers
    | cons next others => exact hmembers

/-- The tokens of elements lead to the array that they make up with the elements before. -/
theorem advanceAll?_tokensOfElements : (elements : List Json) → elements ≠ [] →
    areReadable elements = true → (before : List Json) → (stack : List Frame) →
    (rest : List Token) →
    advanceAll? (.value (.array before.reverse :: stack))
        (tokensOfElements elements ++ .closeArray :: rest) =
      advanceAll? (.after (.array (before ++ elements)) stack) rest
  | [], hne, _, _, _, _ => absurd rfl hne
  | [value], _, h, before, stack, rest => by
    rw [tokensOfElements, advanceAll?_tokensOf value (Bool.and_eq_true_iff.1 h).1,
      advanceAll?_cons rfl, List.reverse_cons, List.reverse_reverse]
  | value :: next :: others, _, h, before, stack, rest => by
    obtain ⟨hvalue, hothers⟩ := Bool.and_eq_true_iff.1 h
    have hnext := advanceAll?_tokensOfElements (next :: others) (by simp) hothers
      (before ++ [value]) stack rest
    rw [List.reverse_append, List.reverse_singleton, List.singleton_append, List.append_assoc,
      List.singleton_append] at hnext
    rw [tokensOfElements, List.append_assoc, List.cons_append,
      advanceAll?_tokensOf value hvalue, advanceAll?_cons rfl, hnext]

/-- The tokens of members lead to the object that they make up with the members before. -/
theorem advanceAll?_tokensOfMembers : (members : List (String × Json)) → members ≠ [] →
    haveReadable members = true → (before : List (String × Json)) → (stack : List Frame) →
    (rest : List Token) →
    advanceAll? (.key (heldMembers before).reverse stack)
        (tokensOfMembers members ++ .closeObject :: rest) =
      advanceAll? (.after (.object (before ++ members)) stack) rest
  | [], hne, _, _, _, _ => absurd rfl hne
  | [(key, value)], _, h, before, stack, rest => by
    have hmembers : ofMembers ((some key, value) :: (heldMembers before).reverse).reverse =
        .object (before ++ [(key, value)]) := by
      rw [← ofMembers_heldMembers, heldMembers, heldMembers, List.reverse_cons,
        List.reverse_reverse, List.map_append]
      rfl
    rw [tokensOfMembers, List.cons_append, List.cons_append, advanceAll?_cons rfl,
      advanceAll?_cons rfl, advanceAll?_tokensOf value (Bool.and_eq_true_iff.1 h).1,
      advanceAll?_cons rfl, hmembers]
  | (key, value) :: next :: others, _, h, before, stack, rest => by
    obtain ⟨hvalue, hothers⟩ := Bool.and_eq_true_iff.1 h
    have hnext := advanceAll?_tokensOfMembers (next :: others) (by simp) hothers
      (before ++ [(key, value)]) stack rest
    have hheld : (heldMembers (before ++ [(key, value)])).reverse =
        (some key, value) :: (heldMembers before).reverse := by
      simp [heldMembers]
    rw [hheld, List.append_assoc, List.singleton_append] at hnext
    rw [tokensOfMembers, List.cons_append, List.cons_append, List.cons_append,
      List.cons_append, List.append_assoc, List.cons_append, advanceAll?_cons rfl,
      advanceAll?_cons rfl,
      advanceAll?_tokensOf value hvalue, advanceAll?_cons rfl, hnext]

end

/-- A value that has meaning throughout is read from its text. -/
theorem parse?_print {value : Json} (h : value.isReadable = true) :
    parse? (print value) = some value := by
  have htokens := tokensFrom?_print value h [] (by intro c hc; cases hc)
  have hadvance := advanceAll?_tokensOf value h [] []
  rw [List.append_nil] at htokens hadvance
  have hread : tokens? (print value) = some (tokensOf value) := by
    rw [tokens?, htokens]
    simp [tokensFrom?, finish?]
  have hafter : (tokensOf value).foldlM advance? (.value []) = some (.after value []) := hadvance
  rw [parse?, hread, Option.bind_eq_bind, Option.bind_some, hafter]
  rfl

end PreviewInstaller.Json
