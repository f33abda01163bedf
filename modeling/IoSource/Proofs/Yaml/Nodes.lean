import IoSource.Yaml.Node
import Mathlib.Data.List.Basic

/-!
# The nodes of a document

What a node contains is given by numbers, and these are numbers of nodes: a node gets its number
before what it contains is read, and nodes are only added.  `Compose.Grows` says this of each
program that reads a document, and `Document.nodesClosed_ofTokens` of the document.

A program is taken together with the numbers that are known when it starts, as it may put them into
the nodes that it adds.
-/

namespace IoSource.Yaml

/-! ### Programs that succeed -/

section Succeeds

variable {σ ε α β : Type}

theorem exists_of_bind_eq_ok {x : Except ε α} {next : α → Except ε β} {y : β}
    (h : (x >>= next) = .ok y) : ∃ a, x = .ok a ∧ next a = .ok y := by
  cases x with
  | error e => cases h
  | ok a => exact ⟨a, rfl, h⟩

theorem exists_of_run_bind_eq_ok {p : StateT σ (Except ε) α} {next : α → StateT σ (Except ε) β}
    {s s' : σ} {y : β} (h : (p >>= next).run s = .ok (y, s')) :
    ∃ x s₁, p.run s = .ok (x, s₁) ∧ (next x).run s₁ = .ok (y, s') := by
  rw [StateT.run_bind] at h
  obtain ⟨⟨x, s₁⟩, hfirst, hrest⟩ := exists_of_bind_eq_ok h
  exact ⟨x, s₁, hfirst, hrest⟩

theorem exists_of_run'_eq_ok {p : StateT σ (Except ε) α} {s : σ} {x : α} (h : p.run' s = .ok x) :
    ∃ s', p.run s = .ok (x, s') := by
  rw [StateT.run'_eq] at h
  cases hrun : p.run s with
  | error e =>
    rw [hrun] at h
    cases h
  | ok result =>
    rw [hrun] at h
    cases h
    exact ⟨result.2, rfl⟩

end Succeeds

/-! ### Nodes that are numbered -/

def Node.parts : Node → List Nat
  | scalar .. => []
  | list _ items => items
  | mapping _ entries => entries.flatMap fun e => [e.1, e.2]

/-- The numbers in some nodes are numbers of these nodes. -/
def NodesClosed (nodes : Array Node) : Prop :=
  ∀ (m : Nat) (node : Node), nodes[m]? = some node → ∀ n ∈ node.parts, n < nodes.size

theorem NodesClosed.push {nodes : Array Node} (h : NodesClosed nodes) {node : Node}
    (hnode : ∀ n ∈ node.parts, n < nodes.size) : NodesClosed (nodes.push node) := by
  intro m found hfound n hn
  rw [Array.size_push]
  rw [Array.getElem?_push] at hfound
  split at hfound
  · obtain rfl := Option.some.inj hfound
    exact Nat.lt_succ_of_lt (hnode n hn)
  · exact Nat.lt_succ_of_lt (h m found hfound n hn)

theorem NodesClosed.set {nodes : Array Node} (h : NodesClosed nodes) (number : Nat) {node : Node}
    (hnode : ∀ n ∈ node.parts, n < nodes.size) :
    NodesClosed (nodes.setIfInBounds number node) := by
  intro m found hfound n hn
  rw [Array.size_setIfInBounds]
  rw [Array.getElem?_setIfInBounds] at hfound
  split at hfound
  · split at hfound
    · obtain rfl := Option.some.inj hfound
      exact hnode n hn
    · exact absurd hfound (by simp)
  · exact h m found hfound n hn

/-- The numbers that a composer holds are those of its nodes. -/
structure Composer.IsClosed (c : Composer) : Prop where
  nodes : NodesClosed c.nodes
  anchors : ∀ a ∈ c.anchors, a.2 < c.nodes.size

namespace Compose

/-- A program adds nodes to a composer and keeps it closed, and the parts of its result are nodes,
if the numbers that are known are. -/
def Grows {α : Type} (known : List Nat) (parts : α → List Nat) (p : Compose α) : Prop :=
  ∀ c : Composer, c.IsClosed → (∀ n ∈ known, n < c.nodes.size) → ∀ x c', p.run c = .ok (x, c') →
    c'.IsClosed ∧ c.nodes.size ≤ c'.nodes.size ∧ ∀ n ∈ parts x, n < c'.nodes.size

def noParts {α : Type} (_ : α) : List Nat := []

variable {α β : Type} {known : List Nat} {parts : α → List Nat} {parts' : β → List Nat}

theorem grows_pure {x : α} (h : ∀ n ∈ parts x, n ∈ known) : Grows known parts (pure x) := by
  intro c hc hknown y c' hrun
  cases hrun
  exact ⟨hc, Nat.le_refl _, fun n hn => hknown n (h n hn)⟩

theorem grows_done (x : α) : Grows known noParts (pure x) :=
  grows_pure (List.forall_mem_nil _)

theorem grows_throw (e : Error) : Grows known parts (throw e) := by
  intro c hc hknown y c' hrun
  cases hrun

theorem grows_bind {p : Compose α} {next : α → Compose β} (hp : Grows known parts p)
    (hnext : ∀ x, Grows (parts x ++ known) parts' (next x)) :
    Grows known parts' (p >>= next) := by
  intro c hc hknown y c' hrun
  obtain ⟨x, c₁, hfirst, hrest⟩ := exists_of_run_bind_eq_ok hrun
  obtain ⟨hc₁, hle, hparts⟩ := hp c hc hknown x c₁ hfirst
  have hknown₁ : ∀ n ∈ parts x ++ known, n < c₁.nodes.size := by
    intro n hn
    rcases List.mem_append.mp hn with hn | hn
    · exact hparts n hn
    · exact Nat.lt_of_lt_of_le (hknown n hn) hle
  obtain ⟨hc', hle', hparts'⟩ := hnext x c₁ hc₁ hknown₁ y c' hrest
  exact ⟨hc', Nat.le_trans hle hle', hparts'⟩

theorem grows_seq {p : Compose α} {next : α → Compose β} (hp : Grows known noParts p)
    (hnext : ∀ x, Grows known parts' (next x)) : Grows known parts' (p >>= next) :=
  grows_bind hp hnext

theorem grows_get : Grows known noParts (get : Compose Composer) := by
  intro c hc hknown x c' hrun
  cases hrun
  exact ⟨hc, Nat.le_refl _, fun n hn => absurd hn (by simp [noParts])⟩

theorem grows_modify {f : Composer → Composer}
    (hf : ∀ c, (f c).nodes = c.nodes ∧ (f c).anchors = c.anchors) :
    Grows known noParts (modify f : Compose Unit) := by
  intro c hc hknown x c' hrun
  cases hrun
  obtain ⟨hnodes, hanchors⟩ := hf c
  refine ⟨⟨?_, ?_⟩, ?_, fun n hn => absurd hn (by simp [noParts])⟩
  · rw [hnodes]
    exact hc.nodes
  · rw [hnodes, hanchors]
    exact hc.anchors
  · exact Nat.le_of_eq (congrArg Array.size hnodes).symm

theorem grows_map {p : Compose α} (hp : Grows known parts p) {f : α → β}
    (hf : ∀ x, ∀ n ∈ parts' (f x), n ∈ parts x) : Grows known parts' (f <$> p) := by
  rw [map_eq_pure_bind]
  exact grows_bind hp fun x => grows_pure fun n hn => List.mem_append_left _ (hf x n hn)

theorem grows_ite {c : Prop} [Decidable c] {p q : Compose α} (hp : Grows known parts p)
    (hq : Grows known parts q) : Grows known parts (if c then p else q) := by
  split
  · exact hp
  · exact hq

/-! ### Tokens -/

theorem grows_peek : Grows known noParts peek := by
  refine grows_seq grows_get fun c => ?_
  split
  · exact grows_throw _
  · exact grows_done _

theorem grows_skip : Grows known noParts skip := grows_modify fun _ => ⟨rfl, rfl⟩

theorem grows_skipIf (t : Token) : Grows known noParts (skipIf t) := by
  refine grows_seq grows_peek fun next => ?_
  split
  · exact grows_seq grows_skip fun _ => grows_done _
  · exact grows_done _

theorem grows_expect (t : Token) : Grows known noParts (expect t) := by
  refine grows_seq (grows_skipIf t) fun found => ?_
  split
  · exact grows_throw _
  · exact grows_done _

theorem grows_nextIsOneOf (ts : List Token) : Grows known noParts (nextIsOneOf ts) :=
  grows_seq grows_peek fun _ => grows_done _

theorem grows_anchor? : Grows known noParts anchor? := by
  refine grows_seq grows_peek fun next => ?_
  split
  · exact grows_seq grows_skip fun _ => grows_done _
  · exact grows_done _

theorem grows_tagParts? : Grows known noParts tagParts? := by
  refine grows_seq grows_peek fun next => ?_
  split
  · exact grows_seq grows_skip fun _ => grows_done _
  · exact grows_done _

theorem grows_wholeTag (parts : Option Text × Text) : Grows known noParts (wholeTag parts) := by
  unfold wholeTag
  split
  · exact grows_done _
  · refine grows_seq grows_get fun c => ?_
    split
    · exact grows_done _
    · exact grows_throw _

theorem grows_properties : Grows known noParts properties := by
  refine grows_seq grows_anchor? fun before? => grows_seq grows_tagParts? fun parts? => ?_
  have hlast : ∀ behind? : Option Text, Grows known noParts (do
      let tag? ← parts?.mapM wholeTag
      return (before?.or behind?, tag?)) := by
    intro behind?
    refine grows_seq ?_ fun _ => grows_done _
    cases parts? with
    | none => exact grows_done _
    | some parts => exact grows_seq (grows_wholeTag parts) fun _ => grows_done _
  dsimp only
  split
  · exact grows_seq (grows_done _) hlast
  · exact grows_seq grows_anchor? hlast

/-! ### Nodes -/

theorem grows_nested [Platform] {p : Compose α} (hp : Grows known parts p) :
    Grows known parts (nested p) := by
  refine grows_seq grows_get fun c => ?_
  have hread : Grows known parts (do
      modify fun d => { d with depth := c.depth + 1 }
      let x ← p
      modify fun d => { d with depth := c.depth }
      return x) := by
    refine grows_seq (grows_modify fun _ => ⟨rfl, rfl⟩) fun _ => grows_bind hp fun x => ?_
    refine grows_seq (grows_modify fun _ => ⟨rfl, rfl⟩) fun _ => grows_pure fun n hn => ?_
    exact List.mem_append_left _ hn
  dsimp only
  split
  · exact grows_seq (grows_throw _) fun _ => hread
  · exact hread

theorem grows_add {node : Node} (hnode : ∀ n ∈ node.parts, n ∈ known) :
    Grows known (fun n => [n]) (add node) := by
  intro c hc hknown x c' hrun
  cases hrun
  refine ⟨⟨?_, ?_⟩, ?_, ?_⟩
  · exact hc.nodes.push fun n hn => hknown n (hnode n hn)
  · intro a ha
    show a.2 < (c.nodes.push node).size
    rw [Array.size_push]
    exact Nat.lt_succ_of_lt (hc.anchors a ha)
  · show c.nodes.size ≤ (c.nodes.push node).size
    rw [Array.size_push]
    exact Nat.le_succ _
  · intro n hn
    obtain rfl := List.mem_singleton.mp hn
    show c.nodes.size < (c.nodes.push node).size
    rw [Array.size_push]
    exact Nat.lt_succ_self _

theorem grows_replace {number : Nat} {node : Node} (hnumber : number ∈ known)
    (hnode : ∀ n ∈ node.parts, n ∈ known) :
    Grows known (fun n => [n]) (replace number node) := by
  intro c hc hknown x c' hrun
  cases hrun
  have hsize : (c.nodes.setIfInBounds number node).size = c.nodes.size :=
    Array.size_setIfInBounds
  refine ⟨⟨?_, ?_⟩, Nat.le_of_eq hsize.symm, ?_⟩
  · exact hc.nodes.set number fun n hn => hknown n (hnode n hn)
  · intro a ha
    exact Nat.lt_of_lt_of_eq (hc.anchors a ha) hsize.symm
  · intro n hn
    obtain rfl := List.mem_singleton.mp hn
    exact Nat.lt_of_lt_of_eq (hknown n hnumber) hsize.symm

theorem grows_anchorNode (name : Text) {number : Nat} (hnumber : number ∈ known) :
    Grows known noParts (anchorNode name number) := by
  refine grows_seq grows_get fun c => ?_
  have hadd : Grows known noParts
      (modify fun d : Composer => { d with anchors := (name, number) :: d.anchors }) := by
    intro d hd hknown x d' hrun
    cases hrun
    refine ⟨⟨hd.nodes, ?_⟩, Nat.le_refl _, List.forall_mem_nil _⟩
    intro a ha
    rcases List.mem_cons.mp ha with rfl | ha
    · exact hknown number hnumber
    · exact hd.anchors a ha
  split
  · exact grows_seq (grows_throw _) fun _ => hadd
  · exact hadd

theorem grows_anchored (name : Text) : Grows known (fun n => [n]) (anchored name) := by
  intro c hc hknown x c' hrun
  rw [anchored, StateT.run_bind, StateT.run_get, pure_bind] at hrun
  dsimp only at hrun
  split at hrun
  · next number hfind =>
    cases hrun
    refine ⟨hc, Nat.le_refl _, fun n hn => ?_⟩
    obtain rfl := List.mem_singleton.mp hn
    exact hc.anchors _ (List.mem_of_find?_eq_some hfind)
  · cases hrun

end Compose

/-! ### The grammar -/

namespace Document

open Compose

def entryParts (entries : List (Nat × Nat)) : List Nat := entries.flatMap fun e => [e.1, e.2]

theorem grows_cons (known : List Nat) {first : Compose Nat} {rest : Compose (List Nat)}
    (hfirst : Grows known (fun n => [n]) first) (hrest : ∀ known, Grows known id rest) :
    Grows known id (do return (← first) :: (← rest)) := by
  refine grows_bind hfirst fun x => grows_bind (hrest _) fun xs => grows_pure fun n hn => ?_
  rcases List.mem_cons.mp hn with rfl | hn
  · simp
  · exact List.mem_append_left _ hn

variable [Platform]

/-- What is read with some fuel grows a composer. -/
structure ReadersGrow (fuel : Nat) : Prop where
  node : ∀ inBlock belowKey known,
    Grows known (fun n => [n]) (readNode fuel inBlock belowKey)
  content : ∀ inBlock belowKey mayBeEmpty tag? known,
    Grows known Node.parts (readContent fuel inBlock belowKey mayBeEmpty tag?)
  nodeUnless : ∀ inBlock belowKey ends known,
    Grows known (fun n => [n]) (readNodeUnless fuel inBlock belowKey ends)
  value : ∀ inBlock ends known, Grows known (fun n => [n]) (readValue fuel inBlock ends)
  items : ∀ belowKey known, Grows known id (readItems fuel belowKey)
  entries : ∀ known, Grows known entryParts (readEntries fuel)
  flowItem : ∀ known, Grows known (fun n => [n]) (readFlowItem fuel)
  flowItems : ∀ known, Grows known id (readFlowItems fuel)
  flowEntry : ∀ known, Grows known (fun e => [e.1, e.2]) (readFlowEntry fuel)
  flowEntries : ∀ known, Grows known entryParts (readFlowEntries fuel)

theorem readersGrow_zero : ReadersGrow 0 := by
  constructor <;> intros <;> exact grows_throw _

variable {fuel : Nat} (h : ReadersGrow fuel) (known : List Nat)

include h

theorem grows_readNode (inBlock belowKey : Bool) :
    Grows known (fun n => [n]) (readNode (fuel + 1) inBlock belowKey) := by
  rw [readNode]
  refine grows_seq grows_peek fun t => ?_
  split
  · exact grows_seq grows_skip fun _ => grows_anchored _
  · refine grows_seq grows_properties fun parts => ?_
    obtain ⟨anchor?, tag?⟩ := parts
    refine grows_seq (grows_seq grows_peek fun _ => grows_done _) fun _ => ?_
    refine grows_bind (grows_add (List.forall_mem_nil _)) fun number => ?_
    have hcontent : Grows ([number] ++ known) (fun n => [n]) (do
        replace number (← nested (readContent fuel inBlock belowKey
          (anchor?.isSome || tag?.isSome) tag?))) := by
      refine grows_bind (grows_nested (h.content _ _ _ _ _)) fun node => ?_
      refine grows_replace (by simp) fun n hn => List.mem_append_left _ hn
    dsimp only
    split
    · exact grows_seq (grows_anchorNode _ (by simp)) fun _ => hcontent
    · exact hcontent

theorem grows_readContent (inBlock belowKey mayBeEmpty : Bool) (tag? : Option Text) :
    Grows known Node.parts (readContent (fuel + 1) inBlock belowKey mayBeEmpty tag?) := by
  have hlist : ∀ {p : Compose (List Nat)} (tag : Tag), Grows known id p →
      Grows known Node.parts (do return .list tag (← p)) := fun tag hp =>
    grows_bind hp fun xs => grows_pure fun n hn => List.mem_append_left _ hn
  have hmapping : ∀ {p : Compose (List (Nat × Nat))} (tag : Tag), Grows known entryParts p →
      Grows known Node.parts (do return .mapping tag (← p)) := fun tag hp =>
    grows_bind hp fun xs => grows_pure fun n hn => List.mem_append_left _ hn
  rw [readContent]
  refine grows_seq grows_peek fun t => ?_
  split
  · exact grows_seq grows_skip fun _ => grows_pure (List.forall_mem_nil _)
  · refine grows_seq grows_skip fun _ => grows_seq (grows_skipIf _) fun closed => ?_
    split
    · exact grows_pure (List.forall_mem_nil _)
    · refine grows_bind (h.flowItem _) fun x => grows_bind (h.flowItems _) fun xs => grows_pure ?_
      intro n hn
      rcases List.mem_cons.mp hn with rfl | hn
      · simp
      · exact List.mem_append_left _ hn
  · refine grows_seq grows_skip fun _ => grows_seq (grows_skipIf _) fun closed => ?_
    split
    · exact grows_pure (List.forall_mem_nil _)
    · refine grows_bind (h.flowEntry _) fun e => grows_bind (h.flowEntries _) fun es =>
        grows_pure ?_
      intro n hn
      simp only [Node.parts, List.flatMap_cons, List.mem_append] at hn
      rcases hn with hn | hn
      · exact List.mem_append_right _ (List.mem_append_left _ hn)
      · exact List.mem_append_left _ hn
  · refine grows_ite (hlist _ (h.items _ _)) (grows_ite ?_ (grows_ite ?_ (grows_ite ?_ ?_)))
    · exact grows_seq grows_skip fun _ => hlist _ (h.items _ _)
    · exact grows_seq grows_skip fun _ => hmapping _ (h.entries _)
    · exact grows_pure (List.forall_mem_nil _)
    · exact grows_throw _

theorem grows_readNodeUnless (inBlock belowKey : Bool) (ends : List Token) :
    Grows known (fun n => [n]) (readNodeUnless (fuel + 1) inBlock belowKey ends) := by
  rw [readNodeUnless]
  refine grows_seq (grows_nextIsOneOf ends) fun found => grows_ite ?_ (h.node _ _ _)
  exact grows_add (List.forall_mem_nil _)

theorem grows_readValue (inBlock : Bool) (ends : List Token) :
    Grows known (fun n => [n]) (readValue (fuel + 1) inBlock ends) := by
  rw [readValue]
  refine grows_seq (grows_skipIf _) fun found => grows_ite (h.nodeUnless _ _ _ _) ?_
  exact grows_add (List.forall_mem_nil _)

theorem grows_readItems (belowKey : Bool) : Grows known id (readItems (fuel + 1) belowKey) := by
  rw [readItems]
  refine grows_seq (grows_skipIf _) fun found => grows_ite ?_ ?_
  · exact grows_cons known (h.nodeUnless _ _ _ _) (h.items _)
  · have hdone : Grows known id (pure [] : Compose (List Nat)) :=
      grows_pure (List.forall_mem_nil _)
    exact grows_ite (grows_seq (grows_expect _) fun _ => hdone) hdone

theorem grows_readEntries : Grows known entryParts (readEntries (fuel + 1)) := by
  rw [readEntries]
  refine grows_seq (grows_skipIf _) fun found => grows_ite ?_ ?_
  · refine grows_bind (h.nodeUnless _ _ _ _) fun key => grows_bind (h.value _ _ _) fun value => ?_
    refine grows_bind (h.entries _) fun es => grows_pure fun n hn => ?_
    simp only [entryParts, List.flatMap_cons, List.mem_append, List.mem_cons] at hn ⊢
    tauto
  · refine grows_seq (grows_expect _) fun _ => grows_pure (List.forall_mem_nil _)

theorem grows_readFlowItem : Grows known (fun n => [n]) (readFlowItem (fuel + 1)) := by
  rw [readFlowItem]
  refine grows_seq (grows_skipIf _) fun found => grows_ite ?_ (h.node _ _ _)
  refine grows_bind (grows_nested (h.nodeUnless _ _ _ _)) fun key => ?_
  refine grows_bind (grows_nested (h.value _ _ _)) fun value => grows_add fun n hn => ?_
  simp only [Node.parts, List.flatMap_cons, List.flatMap_nil, List.mem_append,
    List.mem_cons] at hn ⊢
  tauto

theorem grows_readFlowItems : Grows known id (readFlowItems (fuel + 1)) := by
  have hdone : Grows known id (pure [] : Compose (List Nat)) :=
    grows_pure (List.forall_mem_nil _)
  rw [readFlowItems]
  refine grows_seq (grows_skipIf _) fun closed => grows_ite hdone ?_
  refine grows_seq (grows_expect _) fun _ => grows_seq (grows_skipIf _) fun closed => ?_
  exact grows_ite hdone (grows_cons known (h.flowItem _) h.flowItems)

theorem grows_readFlowEntry :
    Grows known (fun e => [e.1, e.2]) (readFlowEntry (fuel + 1)) := by
  have hpair : ∀ key value, ∀ n ∈ [key, value], n ∈ [value] ++ ([key] ++ known) := by simp
  rw [readFlowEntry]
  refine grows_seq (grows_skipIf _) fun found => grows_ite ?_ ?_
  · refine grows_bind (h.nodeUnless _ _ _ _) fun key => grows_bind (h.value _ _ _) fun value => ?_
    exact grows_pure (hpair key value)
  · refine grows_bind (h.node _ _ _) fun key => grows_bind (grows_add ?_) fun value => ?_
    · exact List.forall_mem_nil _
    · exact grows_pure (hpair key value)

theorem grows_readFlowEntries : Grows known entryParts (readFlowEntries (fuel + 1)) := by
  have hdone : Grows known entryParts (pure [] : Compose (List (Nat × Nat))) :=
    grows_pure (List.forall_mem_nil _)
  rw [readFlowEntries]
  refine grows_seq (grows_skipIf _) fun closed => grows_ite hdone ?_
  refine grows_seq (grows_expect _) fun _ => grows_seq (grows_skipIf _) fun closed => ?_
  refine grows_ite hdone (grows_bind (h.flowEntry _) fun e => grows_bind (h.flowEntries _) fun es =>
    grows_pure fun n hn => ?_)
  simp only [entryParts, List.flatMap_cons, List.mem_append] at hn ⊢
  tauto

omit h in
/-- **Everything that reads nodes** grows a composer, by one induction on the fuel. -/
theorem readersGrow (fuel : Nat) : ReadersGrow fuel := by
  induction fuel with
  | zero => exact readersGrow_zero
  | succ fuel ih =>
    exact {
      node := fun a b known => grows_readNode ih known a b
      content := fun a b c t known => grows_readContent ih known a b c t
      nodeUnless := fun a b ends known => grows_readNodeUnless ih known a b ends
      value := fun a ends known => grows_readValue ih known a ends
      items := fun a known => grows_readItems ih known a
      entries := fun known => grows_readEntries ih known
      flowItem := fun known => grows_readFlowItem ih known
      flowItems := fun known => grows_readFlowItems ih known
      flowEntry := fun known => grows_readFlowEntry ih known
      flowEntries := fun known => grows_readFlowEntries ih known }

omit [Platform] h in
theorem grows_readDirectives (fuel : Nat) (hasVersion : Bool) (handles : List (Text × Text)) :
    Grows known noParts (readDirectives fuel hasVersion handles) := by
  induction fuel generalizing hasVersion handles with
  | zero => exact grows_throw _
  | succ fuel ih =>
    rw [readDirectives]
    refine grows_seq grows_peek fun t => ?_
    split
    · refine grows_seq grows_skip fun _ => ?_
      exact grows_ite (grows_seq (grows_throw _) fun _ => ih _ _) (ih _ _)
    · refine grows_seq grows_skip fun _ => ?_
      exact grows_ite (grows_seq (grows_throw _) fun _ => ih _ _) (ih _ _)
    · exact grows_seq grows_skip fun _ => ih _ _
    · exact grows_done _

omit [Platform] h in
theorem grows_skipDocumentEnds (fuel : Nat) : Grows known noParts (skipDocumentEnds fuel) := by
  induction fuel with
  | zero => exact grows_done _
  | succ fuel ih =>
    rw [skipDocumentEnds]
    exact grows_seq (grows_skipIf _) fun found => grows_ite ih (grows_done _)

omit h in
theorem grows_readMarkedDocument (fuel : Nat) :
    Grows known (fun n => [n]) (readMarkedDocument fuel) := by
  have hempty : Grows known (fun n => [n]) (add Node.empty) :=
    grows_add (List.forall_mem_nil _)
  rw [readMarkedDocument]
  refine grows_seq (grows_readDirectives known fuel _ _) fun handles => ?_
  refine grows_seq (grows_modify fun _ => ⟨rfl, rfl⟩) fun _ => ?_
  refine grows_seq (grows_expect _) fun _ => grows_seq grows_peek fun t => ?_
  split
  · exact hempty
  · exact hempty
  · exact hempty
  · exact hempty
  · exact (readersGrow fuel).node _ _ _

omit h in
theorem grows_readStream (fuel : Nat) : Grows known Option.toList (readStream fuel) := by
  have hend : ∀ root? : Option Nat, Grows (root?.toList ++ known) Option.toList (do
      skipDocumentEnds fuel
      if !(← skipIf .streamEnd) then
        discard (readDirectives fuel false [])
        fail
      return root?) := by
    intro root?
    refine grows_seq (grows_skipDocumentEnds _ fuel) fun _ => grows_seq (grows_skipIf _) fun _ => ?_
    have hroot : Grows (root?.toList ++ known) Option.toList (pure root? : Compose (Option Nat)) :=
      grows_pure fun n hn => List.mem_append_left _ hn
    refine grows_ite ?_ hroot
    refine grows_seq (grows_seq (grows_readDirectives _ fuel _ _) fun _ => grows_done _) fun _ => ?_
    exact grows_seq (grows_throw _) fun _ => hroot
  have hsome : ∀ {p : Compose Nat}, Grows known (fun n => [n]) p →
      Grows known Option.toList (some <$> p) := fun hp => grows_map hp fun x n hn => hn
  rw [readStream]
  refine grows_seq grows_peek fun t => ?_
  split
  · have hnone : Grows known Option.toList (pure none : Compose (Option Nat)) :=
      grows_pure (List.forall_mem_nil _)
    exact grows_bind hnone hend
  · exact grows_bind (hsome (grows_readMarkedDocument known fuel)) hend
  · exact grows_bind (hsome (grows_readMarkedDocument known fuel)) hend
  · refine grows_seq (grows_modify fun _ => ⟨rfl, rfl⟩) fun _ => ?_
    exact grows_bind (hsome ((readersGrow fuel).node _ _ _)) hend

omit h in
/-- **The numbers in a document** are numbers of its nodes. -/
theorem nodesClosed_ofTokens {tokens : List Token} {d : Document}
    (hd : ofTokens tokens = .ok (some d)) : NodesClosed d.nodes ∧ d.root < d.nodes.size := by
  have hstart : Composer.IsClosed { tokens } := by
    refine ⟨fun m node hnode => absurd hnode (by simp), fun a ha => absurd ha List.not_mem_nil⟩
  rw [ofTokens] at hd
  cases hrun : (readStream (4 * tokens.length + 4)).run { tokens } with
  | error e =>
    rw [hrun] at hd
    cases hd
  | ok result =>
    obtain ⟨root?, c⟩ := result
    obtain ⟨hc, -, hroot⟩ := grows_readStream [] _ _ hstart (by simp) root? c hrun
    rw [hrun] at hd
    cases root? with
    | none => cases hd
    | some root =>
      cases hd
      exact ⟨hc.nodes, hroot root (by simp)⟩

end Document

end IoSource.Yaml
