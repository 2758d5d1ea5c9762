import LineTemplate.Json.Reader
import Mathlib.Tactic.Common

/-!
# Keys of the objects that are read

The members of an object that is still open are kept in a map, so that their keys ascend and none
comes twice when it is closed. A reading is complete after the token that closes its value, whatever
was read before, and so the members of a tag file have different names, and come in their order.
-/
namespace LineTemplate

/-- The order of texts by their code points; a text comes before those that continue it. -/
def Text.Precedes (a b : Text) : Prop := List.Lex (fun c d => c.toNat < d.toNat) a b

namespace Text

lemma compare_eq_lt_iff {a b : Text} : compare a b = .lt ↔ a.Precedes b := by
  have hchar (c d : Char) : compare c d = .lt ↔ c.toNat < d.toNat := compareOfLessAndEq_eq_lt
  induction a generalizing b with
  | nil => cases b <;> simp [Precedes]
  | cons c a ih =>
    cases b with
    | nil => simp [Precedes]
    | cons d b =>
      rw [List.compare_cons_cons, Ordering.then_eq_lt, hchar, Std.compare_eq_iff_eq]
      rw [Precedes, List.cons_lex_cons_iff]
      exact or_congr_right (and_congr_right fun _ => ih)

lemma not_precedes_self (a : Text) : ¬ a.Precedes a := by
  rw [← compare_eq_lt_iff, Std.compare_self]
  nofun

lemma Precedes.not_precedes {a b : Text} (h : a.Precedes b) : ¬ b.Precedes a := by
  rw [← compare_eq_lt_iff] at h ⊢
  rw [Std.OrientedOrd.eq_swap, h]
  nofun

end Text

def NamesAscend {α : Type} (pairs : List (Text × α)) : Prop :=
  pairs.Pairwise fun a b => a.1.Precedes b.1

lemma namesAscend_toList {α : Type} (map : Std.TreeMap Text α) : NamesAscend map.toList :=
  Std.TreeMap.ordered_keys_toList.imp Text.compare_eq_lt_iff.mp

lemma NamesAscend.nodup {α : Type} {pairs : List (Text × α)} (h : NamesAscend pairs) :
    (pairs.map Prod.fst).Nodup := by
  refine List.pairwise_map.mpr (h.imp ?_)
  intro a b hab heq
  exact Text.not_precedes_self _ (heq ▸ hab)

namespace Json

def KeysAscend : Json → Prop
  | object members => NamesAscend members
  | _ => True

/-- The keys of a token ascend, should it be an object by itself. -/
def Token.Plain : Token → Prop
  | .scalar value => value.KeysAscend
  | _ => True

lemma plain_of_readToken? {text rest : Text} {token : Token}
    (h : readToken? text = some (token, rest)) : token.Plain := by
  unfold readToken? at h
  split at h
  iterate 6
    obtain ⟨rfl, -⟩ := Prod.mk.inj (Option.some.inj h)
    exact True.intro
  · obtain ⟨⟨value, rest'⟩, -, he⟩ := Option.map_eq_some_iff.mp h
    obtain ⟨rfl, -⟩ := Prod.mk.inj he
    exact True.intro
  · rcases Option.or_eq_some_iff.mp h with hw | ⟨-, hn⟩
    · simp only [readWord?] at hw
      obtain ⟨⟨word, value⟩, hmem, hw⟩ := List.exists_of_findSome?_eq_some hw
      obtain ⟨rest', -, he⟩ := Option.map_eq_some_iff.mp hw
      obtain ⟨rfl, -⟩ := Prod.mk.inj he
      simp only [words, List.mem_cons, Prod.mk.injEq, List.not_mem_nil, or_false] at hmem
      rcases hmem with ⟨-, rfl⟩ | ⟨-, rfl⟩ | ⟨-, rfl⟩ <;> exact True.intro
    · unfold readNumber? at hn
      split at hn
      · contradiction
      · obtain ⟨number, -, he⟩ := Option.map_eq_some_iff.mp hn
        obtain ⟨rfl, -⟩ := Prod.mk.inj he
        exact True.intro

lemma plain_of_tokensFrom? {taken tokens : List Token} {text : Text}
    (h : tokensFrom? taken text = some tokens) (ht : ∀ token ∈ taken, token.Plain) :
    ∀ token ∈ tokens, token.Plain := by
  induction taken, text using tokensFrom?.induct with
  | case1 taken =>
    rw [tokensFrom?] at h
    obtain rfl := Option.some.inj h
    exact fun token hm => ht token (List.mem_reverse.mp hm)
  | case2 taken c text hs ih =>
    rw [tokensFrom?, if_pos hs] at h
    exact ih h ht
  | case3 taken c text hs hr =>
    rw [tokensFrom?, if_neg hs] at h
    split at h <;> simp_all
  | case4 taken c text hs token rest hr ih =>
    rw [tokensFrom?, if_neg hs, hr] at h
    refine ih h fun token' hm => ?_
    rcases List.mem_cons.mp hm with rfl | hm
    · exact plain_of_readToken? hr
    · exact ht token' hm

namespace Reading

/-- A reading that is complete has come to a value with ascending keys. -/
def EndsSorted (r : Reading) : Prop := ∀ value, r.expected = .finished value → value.KeysAscend

lemma endsSorted_complete (value : Json) (h : value.KeysAscend) (stack : List Open) :
    (complete value stack).EndsSorted := by
  intro value' he
  cases stack with
  | nil =>
    obtain rfl := Expectation.finished.inj he
    exact h
  | cons container stack => cases container <;> contradiction

lemma endsSorted_push {container : Open} {expected : Expectation} {stack : List Open} {r : Reading}
    (h : push container expected stack = some r) (hn : ∀ value, expected ≠ .finished value) :
    r.EndsSorted := by
  unfold push at h
  split_ifs at h
  obtain rfl := Option.some.inj h
  exact fun value he => absurd he (hn value)

lemma endsSorted_beginValue {stack : List Open} {token : Token} {r : Reading}
    (h : beginValue stack token = some r) (ht : token.Plain) : r.EndsSorted := by
  unfold beginValue at h
  split at h
  · exact endsSorted_push h nofun
  · exact endsSorted_push h nofun
  · obtain rfl := Option.some.inj h
    exact endsSorted_complete (.string _) True.intro stack
  · obtain rfl := Option.some.inj h
    exact endsSorted_complete _ ht stack
  · contradiction

/-- Whatever was read before, a reading that is complete after one more token has come to a value
with ascending keys, since the members of an open object are kept in a map. -/
lemma endsSorted_step {r r' : Reading} {token : Token} (h : r.step token = some r')
    (ht : token.Plain) : r'.EndsSorted := by
  have hopen {stack : List Open} {expected : Expectation}
      (hn : ∀ value, expected ≠ .finished value) : EndsSorted ⟨stack, expected⟩ :=
    fun value he => absurd he (hn value)
  unfold step at h
  split at h
  · exact endsSorted_beginValue h ht
  · obtain rfl := Option.some.inj h
    exact endsSorted_complete (.array []) True.intro _
  · exact endsSorted_beginValue h ht
  · obtain rfl := Option.some.inj h
    exact endsSorted_complete (.object []) List.Pairwise.nil _
  iterate 5
    obtain rfl := Option.some.inj h
    exact hopen nofun
  · obtain rfl := Option.some.inj h
    exact endsSorted_complete (.array _) True.intro _
  · obtain rfl := Option.some.inj h
    exact endsSorted_complete (.object _) (namesAscend_toList _) _
  · contradiction

lemma endsSorted_foldlM {tokens : List Token} (ht : ∀ token ∈ tokens, token.Plain)
    {r r' : Reading} (hr : r.EndsSorted) (h : tokens.foldlM step r = some r') : r'.EndsSorted := by
  induction tokens generalizing r with
  | nil =>
    obtain rfl := Option.some.inj h
    exact hr
  | cons token tokens ih =>
    obtain ⟨next, hs, h⟩ := Option.bind_eq_some_iff.mp h
    have htoken := endsSorted_step hs (ht token List.mem_cons_self)
    exact ih (fun other hm => ht other (List.mem_cons_of_mem _ hm)) htoken h

end Reading

/-- The keys of an object that is read ascend. -/
theorem keysAscend_of_read? {text : Text} {value : Json} (h : read? text = some value) :
    value.KeysAscend := by
  obtain ⟨tokens, ht, h⟩ := Option.bind_eq_some_iff.mp h
  obtain ⟨reading, hr, h⟩ := Option.bind_eq_some_iff.mp h
  have hplain := plain_of_tokensFrom? ht (List.forall_mem_nil _)
  have hstart : Reading.start.EndsSorted := nofun
  have hascending := Reading.endsSorted_foldlM hplain hstart hr
  unfold Reading.value? at h
  split at h
  · rename_i hfinished
    obtain rfl := Option.some.inj h
    exact hascending _ hfinished
  · contradiction

end Json

end LineTemplate
