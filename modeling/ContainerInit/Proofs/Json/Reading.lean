import ContainerInit.Json.Decode
import ContainerInit.Proofs.Json.Spacing

/-!
# A tree is read as it was written

- **Building** (`Document.build_tokens`): the tokens of a tree in which nothing is missing build
  that tree, inside whatever containers are open.
- **Documents** (`Document.parse_of_scan`): a text with these tokens is that tree and nothing else,
  so it is decoded as the tree is read, however it is spelled and spaced (`decode_laid`), and so is
  the text that is written for the tree (`decode_render`).
-/

namespace ContainerInit.Json

section Building

variable {frames : List Frame} {ts : List Token}

theorem Document.build_cons {e : Expect} {k : Token} {next : Expect × List Frame}
    (step : e.step? k frames = some next) :
    Document.build e frames (k :: ts) = Document.build next.1 next.2 ts := by
  rw [Document.build, step]

/-- No value starts with the end of an array. -/
theorem Tree.tokens_head (t : Tree) : ∃ k ks, t.tokens = k :: ks ∧ k ≠ .closeArray := by
  cases t with
  | array items closed => cases items <;> exact ⟨_, _, rfl, nofun⟩
  | object members closed => cases members <;> exact ⟨_, _, rfl, nofun⟩
  | _ => exact ⟨_, _, rfl, nofun⟩

/-- The first item of an array is read as any value is. -/
theorem Document.build_firstItem (t : Tree) :
    Document.build .firstItem frames (t.tokens ++ ts) =
      Document.build .value (.array [] :: frames) (t.tokens ++ ts) := by
  obtain ⟨k, ks, tokens, other⟩ := t.tokens_head
  have same : Expect.step? .firstItem k frames = Expect.step? .value k (.array [] :: frames) := by
    cases k <;> first | rfl | exact absurd rfl other
  have abandoned : Expect.abandon .firstItem frames = Expect.abandon .value (.array [] :: frames) :=
    rfl
  rw [tokens, List.cons_append, Document.build, Document.build, same, abandoned]

/-- A tree is built by its tokens, wherever a value is expected. -/
def Tree.Builds (t : Tree) : Prop :=
  ∀ (frames : List Frame) (ts : List Token), Document.build .value frames (t.tokens ++ ts) =
    Document.build (Expect.after t frames).1 (Expect.after t frames).2 ts

theorem Document.build_moreItems {items done : List Tree} (each : ∀ t ∈ items, t.Builds) :
    Document.build (.nextItem done) frames (Tree.moreItems items ++ ts) =
      Document.build (Expect.after (.array (done.reverse ++ items) true) frames).1
        (Expect.after (.array (done.reverse ++ items) true) frames).2 ts := by
  induction items generalizing done with
  | nil =>
    rw [List.append_nil]
    exact build_cons rfl
  | cons t items ih =>
    have split : Tree.moreItems (t :: items) ++ ts =
        .comma :: (t.tokens ++ (Tree.moreItems items ++ ts)) := by
      simp [Tree.moreItems]
    rw [split, build_cons rfl, each t List.mem_cons_self]
    show Document.build (.nextItem (t :: done)) frames _ = _
    rw [ih fun u hu => each u (List.mem_cons_of_mem _ hu), List.reverse_cons, List.append_assoc]
    rfl

/-- From a colon to the end of the member's value. -/
theorem Document.build_member {done : List Member} {m : Member} (builds : m.2.Builds) :
    Document.build (.colon done m.1) frames (.colon :: (m.2.tokens ++ ts)) =
      Document.build (.nextMember (m :: done)) frames ts := by
  rw [build_cons rfl]
  exact builds _ _

theorem Document.build_moreMembers {members done : List Member} (each : ∀ m ∈ members, m.2.Builds) :
    Document.build (.nextMember done) frames (Tree.moreMembers members ++ ts) =
      Document.build (Expect.after (.object (done.reverse ++ members) true) frames).1
        (Expect.after (.object (done.reverse ++ members) true) frames).2 ts := by
  induction members generalizing done with
  | nil =>
    rw [List.append_nil]
    exact build_cons rfl
  | cons m members ih =>
    have split : Tree.moreMembers (m :: members) ++ ts =
        .comma :: .string m.1 :: .colon :: (m.2.tokens ++ (Tree.moreMembers members ++ ts)) := by
      simp [Tree.moreMembers]
    rw [split, build_cons rfl, build_cons rfl, build_member (each m List.mem_cons_self),
      ih fun n hn => each n (List.mem_cons_of_mem _ hn), List.reverse_cons, List.append_assoc]
    rfl

/-- **A tree in which nothing is missing is built by its tokens.** -/
theorem Document.build_tokens {t : Tree} (whole : t.Whole) : t.Builds := by
  induction whole with
  | @array items whole ih =>
    intro frames ts
    cases items with
    | nil =>
      show Document.build .value frames (.openArray :: .closeArray :: ts) = _
      rw [build_cons rfl, build_cons rfl]
    | cons t items =>
      have split : (Tree.array (t :: items) true).tokens ++ ts =
          .openArray :: (t.tokens ++ (Tree.moreItems items ++ ts)) := by
        simp [Tree.tokens]
      rw [split, build_cons rfl]
      show Document.build .firstItem frames _ = _
      rw [build_firstItem, ih t List.mem_cons_self]
      exact build_moreItems fun u hu => ih u (List.mem_cons_of_mem _ hu)
  | @object members named whole ih =>
    intro frames ts
    cases members with
    | nil =>
      show Document.build .value frames (.openObject :: .closeObject :: ts) = _
      rw [build_cons rfl, build_cons rfl]
    | cons m members =>
      have split : (Tree.object (m :: members) true).tokens ++ ts =
          .openObject :: .string m.1 :: .colon ::
            (m.2.tokens ++ (Tree.moreMembers members ++ ts)) := by
        simp [Tree.tokens]
      rw [split, build_cons rfl, build_cons rfl, build_member (ih m List.mem_cons_self)]
      exact build_moreMembers fun n hn => ih n (List.mem_cons_of_mem _ hn)
  | _ => exact fun frames ts => build_cons rfl

end Building

variable {t : Tree} {cs : List Char} {α : Type}

/-- **A text with the tokens of a tree is that tree and nothing else.** -/
theorem Document.parse_of_scan (whole : t.Whole) (tokens : scan cs = t.tokens) :
    Document.parse (String.ofList cs) = ⟨t, false⟩ := by
  rw [Document.parse, String.toList_ofList, tokens, Document.ofTokens, ← List.append_nil t.tokens]
  exact build_tokens whole [] []

/-- A text with the tokens of a tree is decoded as the tree is read. -/
theorem decode_of_scan (whole : t.Whole) (tokens : scan cs = t.tokens) (read : Reader α) :
    decode read (String.ofList cs) = read t := by
  rw [decode, Document.parse_of_scan whole tokens]
  cases read t <;> rfl

/-- Every layout of a tree is decoded as the tree is read. -/
theorem decode_laid (whole : t.Whole) (laid : Laid t.tokens cs) (read : Reader α) :
    decode read (String.ofList cs) = read t :=
  decode_of_scan whole (whole.scan_laid laid) read

/-- The text of a tree is decoded as the tree is read. -/
theorem decode_render (whole : t.Whole) (read : Reader α) : decode read t.render = read t :=
  decode_laid whole whole.laid_print read

end ContainerInit.Json
