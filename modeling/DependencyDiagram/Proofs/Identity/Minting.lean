import DependencyDiagram.Identity.Mint
import DependencyDiagram.Proofs.Identity.Codec
import Mathlib.Data.List.Range
import Mathlib.Data.List.Nodup

/-!
# What a mint hands out

However many identifiers a mint hands out, and of whatever kinds, their numbers ascend from one until the
numbers of thirty-two bits are used up. From then on the last number is handed out again with every call.
The mint does not tell whether its next number was handed out before: the count of what was handed out
fails with the last number already, one call before a number is repeated. Nothing that is minted for one
tree is compared with what is minted for another, so the numbers need only be unique within one run of
calls.
-/

namespace DependencyDiagram

/-- The number of a minted identifier. -/
def NodeId.key? : NodeId → Option Token
  | artificial _ key => some key
  | _ => none

/-- The number after a token's own, as far as there is one. -/
theorem Token.value_next (token : Token) :
    token.next.value = min (token.value + 1) Text.maxWord32 := by
  have bounded := token.bounded
  rw [next]
  split
  · next room => exact (Nat.min_eq_left room).symm
  · next full =>
    rw [Nat.min_eq_right (by omega)]
    omega

namespace Mint

/-- Hand out identifiers of the given kinds one after the other. Groups and other artificial elements are
numbered together, from one sequence. -/
def issueAll (mint : Mint) : List ArtificialKind → List NodeId × Mint
  | [] => ([], mint)
  | kind :: rest =>
    let (id, further) := mint.issue kind
    let (ids, last) := further.issueAll rest
    (id :: ids, last)

/-- The numbers of the identifiers that are handed out for the given kinds. -/
def keys (mint : Mint) (kinds : List ArtificialKind) : List Token :=
  (mint.issueAll kinds).1.filterMap NodeId.key?

variable (mint : Mint) (kinds : List ArtificialKind)

/-- The first number is the mint's next one, and the others are those of the mint behind it. -/
theorem keys_cons (kind : ArtificialKind) :
    mint.keys (kind :: kinds) = mint.next :: (mint.issue kind).2.keys kinds := rfl

/-- One call takes the next number one further, but never beyond the last one. -/
theorem next_issue (kind : ArtificialKind) :
    (mint.issue kind).2.next.value = min (mint.next.value + 1) Text.maxWord32 :=
  mint.next.value_next

/-- Every identifier is of the kind that was asked for. -/
theorem tags_issueAll :
    (mint.issueAll kinds).1.map NodeId.tag = kinds.map NodeTag.artificial := by
  induction kinds generalizing mint with
  | nil => rfl
  | cons kind rest inductionHypothesis =>
    exact congrArg (NodeTag.artificial kind :: ·) (inductionHypothesis (mint.issue kind).2)

/-- The next number after calls is as far on as there were calls, but never beyond the last one. -/
theorem next_issueAll :
    (mint.issueAll kinds).2.next.value = min (mint.next.value + kinds.length) Text.maxWord32 := by
  induction kinds generalizing mint with
  | nil => exact (Nat.min_eq_left mint.next.bounded).symm
  | cons kind rest inductionHypothesis =>
    calc (mint.issueAll (kind :: rest)).2.next.value
        = min ((mint.issue kind).2.next.value + rest.length) Text.maxWord32 :=
          inductionHypothesis (mint.issue kind).2
      _ = min (mint.next.value + (kind :: rest).length) Text.maxWord32 := by
          rw [next_issue, List.length_cons]
          omega

/-- The numbers handed out ascend one by one and stay at the last one. -/
theorem values_keys :
    (mint.keys kinds).map Token.value =
      (List.range kinds.length).map (fun earlier => min (mint.next.value + earlier) Text.maxWord32) := by
  induction kinds generalizing mint with
  | nil => rfl
  | cons kind rest inductionHypothesis =>
    have first : mint.next.value = min (mint.next.value + 0) Text.maxWord32 :=
      (Nat.min_eq_left mint.next.bounded).symm
    rw [keys_cons, List.map_cons, inductionHypothesis, next_issue, List.length_cons,
      List.range_succ_eq_map, List.map_cons, ← first, List.map_map]
    refine congrArg _ (List.map_congr_left (fun earlier _ => ?_))
    rw [Function.comp_apply]
    omega

/-- The numbers handed out are distinct exactly as long as there is one for every call. -/
theorem nodup_keys_iff :
    (mint.keys kinds).Nodup ↔ mint.next.value + kinds.length ≤ Text.maxWord32 + 1 := by
  rw [← List.nodup_map_iff (fun _ _ => Token.eq_of_value), values_keys]
  constructor
  · intro distinct
    by_contra short
    -- the last two calls both hand out the last number
    have bounded := mint.next.bounded
    have same := List.inj_on_of_nodup_map distinct (x := kinds.length - 2) (y := kinds.length - 1)
      (List.mem_range.mpr (by omega)) (List.mem_range.mpr (by omega)) (by omega)
    omega
  · intro enough
    refine List.nodup_range.map_on (fun left leftInside right rightInside same => ?_)
    rw [List.mem_range] at leftInside rightInside
    omega

/-- The count goes no further than one before the last number. -/
theorem issued_issueAll_fresh :
    (fresh.issueAll kinds).2.issued = min kinds.length (Text.maxWord32 - 1) := by
  have next : (fresh.issueAll kinds).2.next.value = min (1 + kinds.length) Text.maxWord32 :=
    next_issueAll fresh kinds
  rw [issued, next]
  omega

/-- For any calls on a fresh mint, one after the other and of kinds in any order, every identifier is of
its kind and its number is one more than the number of calls before, until the numbers of thirty-two bits
are used up; from then on it is the last of them. The numbers are distinct exactly as long as there are
no more calls than numbers. The count that the mint gives stops one before the last number, so it is that
of the calls exactly as long as there are fewer calls than numbers. The induction is on the list of calls
for a mint at any number; starting afresh is the case in which this number is one. -/
theorem minted_exact :
    (fresh.issueAll kinds).1.map NodeId.tag = kinds.map NodeTag.artificial ∧
      (fresh.keys kinds).map Token.value =
        (List.range kinds.length).map (fun earlier => min (1 + earlier) Text.maxWord32) ∧
      (fresh.issueAll kinds).2.issued = min kinds.length (Text.maxWord32 - 1) ∧
      ((fresh.keys kinds).Nodup ↔ kinds.length ≤ Text.maxWord32) ∧
      ((fresh.issueAll kinds).2.issued = kinds.length ↔ kinds.length < Text.maxWord32) := by
  have positive : 0 < Text.maxWord32 := by decide
  have distinct : (fresh.keys kinds).Nodup ↔ 1 + kinds.length ≤ Text.maxWord32 + 1 :=
    nodup_keys_iff fresh kinds
  refine ⟨tags_issueAll fresh kinds, values_keys fresh kinds, issued_issueAll_fresh kinds, ?_, ?_⟩
  · rw [distinct]
    omega
  · rw [issued_issueAll_fresh]
    omega

/-- When as many groups were numbered as there are numbers, the count is one too low; and one more
group is given a number that another one has. -/
theorem used_up_mint_repeats :
    (fresh.issueAll (List.replicate Text.maxWord32 .group)).2.issued = Text.maxWord32 - 1 ∧
      (fresh.issueAll (List.replicate Text.maxWord32 .group)).2.issued ≠ Text.maxWord32 ∧
      ¬ (fresh.keys (List.replicate (Text.maxWord32 + 1) .group)).Nodup := by
  have positive : 0 < Text.maxWord32 := by decide
  have distinct : (fresh.keys (List.replicate (Text.maxWord32 + 1) .group)).Nodup ↔
      1 + (Text.maxWord32 + 1) ≤ Text.maxWord32 + 1 := by
    rw [nodup_keys_iff, List.length_replicate]
    rfl
  rw [issued_issueAll_fresh, List.length_replicate, distinct]
  omega

end Mint

end DependencyDiagram
