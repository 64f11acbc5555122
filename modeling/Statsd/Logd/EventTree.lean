/-
The tree of an event. The values of an event are kept as one list; the fields say where each value stands
in the atom. An element of the atom is a value, or a list of nodes: those of an attribution chain, or the
pairs of a list of keys and values. Whatever buffer the parser accepts, the list of values is the tree of
some elements read from left to right, and every field is that of its place.
-/
import Statsd.Logd.ParseSafety

namespace Statsd.Logd

/-! ## Elements and their places -/

/-- A node of an attribution chain, or a pair of a key and a value: the second value stands at the number
of its type. -/
structure EventNode where
  first : FieldValue
  number : Nat
  second : FieldValue

inductive EventElement where
  | leaf (value : FieldValue)
  | list (nodes : List EventNode)

def EventNode.leaves (n : EventNode) : List FieldValue := [n.first, n.second]

def EventElement.leaves : EventElement → List FieldValue
  | leaf value => [value]
  | list nodes => nodes.flatMap EventNode.leaves

def leavesOf (es : List EventElement) : List FieldValue := es.flatMap EventElement.leaves

/-- The field of a value that is an element. -/
def elementField (tag : Int) (field : Nat) : Field := .ofPos tag (LogEvent.posOf field 1 1) 0

/-- The field of a value of a node; those of the last node are marked. -/
def nodeField (tag : Int) (field node number : Nat) (lastNode : Bool) : Field :=
  let f := Field.ofPos tag (LogEvent.posOf field node number) 2
  if lastNode then f.decorateLastPos 1 else f

structure EventNode.PlacedAt (n : EventNode) (tag : Int) (field node : Nat) (lastNode : Bool) : Prop where
  first : n.first.mField = nodeField tag field node 1 lastNode
  second : n.second.mField = nodeField tag field node n.number lastNode
  low : 2 ≤ n.number
  high : n.number ≤ 5

/-- The nodes of a list from some node on stand at their places. -/
def PlacedNodes (tag : Int) (field : Nat) : Nat → List EventNode → Prop
  | _, [] => True
  | node, n :: ns => n.PlacedAt tag field node ns.isEmpty ∧ PlacedNodes tag field (node + 1) ns

def EventElement.PlacedAt (tag : Int) (field : Nat) : EventElement → Prop
  | leaf value => value.mField = elementField tag field
  | list nodes => PlacedNodes tag field 1 nodes

/-- The elements from some position on stand at their places. -/
def PlacedElements (tag : Int) : Nat → List EventElement → Prop
  | _, [] => True
  | field, e :: es => e.PlacedAt tag field ∧ PlacedElements tag (field + 1) es

variable {tag : Int}

variable {vs : List FieldValue} {es : List EventElement}

theorem PlacedElements.append {field : Nat} {e : EventElement}
    (h : PlacedElements tag field es) (he : e.PlacedAt tag (field + es.length)) : PlacedElements tag field (es ++ [e]) := by
  induction es generalizing field with
  | nil => exact ⟨he, trivial⟩
  | cons e' es ih => exact ⟨h.1, ih h.2 (by rw [Nat.add_assoc, Nat.add_comm 1]; exact he)⟩

theorem PlacedElements.get {field : Nat} (h : PlacedElements tag field es) {i : Nat}
    {e : EventElement} (he : es[i]? = some e) : e.PlacedAt tag (field + i) := by
  induction es generalizing field i with
  | nil => cases he
  | cons e' es ih =>
    cases i with
    | zero =>
      cases he
      exact h.1
    | succ i =>
      have hrest := ih h.2 he
      rwa [Nat.add_assoc, Nat.add_comm 1] at hrest

theorem PlacedNodes.get {field node : Nat} {ns : List EventNode} (h : PlacedNodes tag field node ns) {i : Nat}
    {n : EventNode} (hn : ns[i]? = some n) : n.PlacedAt tag field (node + i) (decide (i + 1 = ns.length)) := by
  induction ns generalizing node i with
  | nil => cases hn
  | cons n' ns ih =>
    cases i with
    | zero =>
      cases hn
      have hlast : decide (0 + 1 = (n :: ns).length) = ns.isEmpty := by cases ns <;> simp
      rw [hlast]
      exact h.1
    | succ i =>
      have hrest := ih h.2 hn
      rw [Nat.add_assoc, Nat.add_comm 1] at hrest
      simpa using hrest

/-! ## Levels -/

/-- The place of an item at its level. -/
structure Level where
  index : Nat
  last : Bool
deriving DecidableEq

/-- The levels on the way to a value: its element, and for a value of a node also the node and the value. -/
inductive Stands (es : List EventElement) : List Level → FieldValue → Prop where
  | element {i : Nat} {value : FieldValue} (h : es[i]? = some (.leaf value)) :
      Stands es [⟨i + 1, decide (i + 1 = es.length)⟩] value
  | first {i j : Nat} {nodes : List EventNode} {n : EventNode} (h : es[i]? = some (.list nodes)) (hn : nodes[j]? = some n) :
      Stands es [⟨i + 1, decide (i + 1 = es.length)⟩, ⟨j + 1, decide (j + 1 = nodes.length)⟩, ⟨1, false⟩] n.first
  | second {i j : Nat} {nodes : List EventNode} {n : EventNode} (h : es[i]? = some (.list nodes)) (hn : nodes[j]? = some n) :
      Stands es [⟨i + 1, decide (i + 1 = es.length)⟩, ⟨j + 1, decide (j + 1 = nodes.length)⟩, ⟨n.number, true⟩] n.second

theorem mem_leavesOf_iff (es : List EventElement) (v : FieldValue) : v ∈ leavesOf es ↔ ∃ levels, Stands es levels v := by
  constructor
  · intro h
    obtain ⟨e, he, hv⟩ := List.mem_flatMap.1 h
    obtain ⟨i, hi⟩ := List.mem_iff_getElem?.1 he
    cases e with
    | leaf value =>
      rw [List.mem_singleton.1 hv]
      exact ⟨_, .element hi⟩
    | list nodes =>
      obtain ⟨n, hn, hv⟩ := List.mem_flatMap.1 hv
      obtain ⟨j, hj⟩ := List.mem_iff_getElem?.1 hn
      rcases List.mem_pair.1 hv with rfl | rfl
      · exact ⟨_, .first hi hj⟩
      · exact ⟨_, .second hi hj⟩
  · rintro ⟨levels, h⟩
    have hmem {i : Nat} {e : EventElement} (he : es[i]? = some e) (hv : v ∈ e.leaves) : v ∈ leavesOf es :=
      List.mem_flatMap.2 ⟨e, List.mem_of_getElem? he, hv⟩
    cases h with
    | element h => exact hmem h List.mem_cons_self
    | first h hn => exact hmem h (List.mem_flatMap.2 ⟨_, List.mem_of_getElem? hn, List.mem_cons_self⟩)
    | second h hn => exact hmem h (List.mem_flatMap.2 ⟨_, List.mem_of_getElem? hn, List.mem_cons_of_mem _ List.mem_cons_self⟩)

/-! ## Values with the same fields -/

theorem PlacedNodes.refill {field node : Nat} {ns : List EventNode} (h : PlacedNodes tag field node ns) (hvs : vs.map (·.mField) = (ns.flatMap EventNode.leaves).map (·.mField)) :
    ∃ ns' : List EventNode, ns'.length = ns.length ∧ PlacedNodes tag field node ns' ∧ ns'.flatMap EventNode.leaves = vs := by
  induction ns generalizing node vs with
  | nil => exact ⟨[], rfl, trivial, (List.map_eq_nil_iff.1 hvs).symm⟩
  | cons n ns ih =>
    obtain ⟨v, vs, rfl⟩ : ∃ v ws, vs = v :: ws := by
      cases vs with
      | nil => cases hvs
      | cons v ws => exact ⟨v, ws, rfl⟩
    obtain ⟨w, vs, rfl⟩ : ∃ w ws, vs = w :: ws := by
      cases vs with
      | nil => cases (List.cons.inj hvs).2
      | cons w ws => exact ⟨w, ws, rfl⟩
    obtain ⟨h1, hrest⟩ := List.cons.inj hvs
    obtain ⟨h2, hrest⟩ := List.cons.inj hrest
    obtain ⟨ns', hlen, hplaced, hleaves⟩ := ih h.2 hrest
    have hempty : ns'.isEmpty = ns.isEmpty := by
      cases ns <;> cases ns' <;> simp at hlen ⊢
    refine ⟨⟨v, n.number, w⟩ :: ns', by simp [hlen], ⟨?_, hplaced⟩, ?_⟩
    · rw [hempty]
      exact ⟨h1.trans h.1.first, h2.trans h.1.second, h.1.low, h.1.high⟩
    · rw [List.flatMap_cons, hleaves]
      rfl

theorem EventElement.PlacedAt.refill {field : Nat} {e : EventElement} (h : e.PlacedAt tag field) (hvs : vs.map (·.mField) = e.leaves.map (·.mField)) :
    ∃ e' : EventElement, e'.PlacedAt tag field ∧ e'.leaves = vs := by
  cases e with
  | leaf value =>
    obtain ⟨v, rfl⟩ : ∃ v, vs = [v] := List.length_eq_one_iff.1 (by simpa [EventElement.leaves] using congrArg List.length hvs)
    exact ⟨.leaf v, (List.cons.inj hvs).1.trans h, rfl⟩
  | list nodes =>
    obtain ⟨ns, -, hplaced, hleaves⟩ := PlacedNodes.refill h hvs
    exact ⟨.list ns, hplaced, hleaves⟩

theorem PlacedElements.refill {field : Nat} (h : PlacedElements tag field es) (hvs : vs.map (·.mField) = (leavesOf es).map (·.mField)) :
    ∃ es' : List EventElement, es'.map (fun e => e.leaves.length) = es.map (fun e => e.leaves.length) ∧ PlacedElements tag field es' ∧
      leavesOf es' = vs := by
  induction es generalizing field vs with
  | nil => exact ⟨[], rfl, trivial, (List.map_eq_nil_iff.1 hvs).symm⟩
  | cons e es ih =>
    rw [leavesOf, List.flatMap_cons, List.map_append] at hvs
    obtain ⟨vs1, vs2, rfl, h1, h2⟩ := List.map_eq_append_iff.1 hvs
    obtain ⟨e', hplaced, hleaves⟩ := h.1.refill h1
    obtain ⟨es', hsizes, hplaced', hleaves'⟩ := ih h.2 h2
    have hsize : e'.leaves.length = e.leaves.length := by
      have hlength := congrArg List.length h1
      rw [List.length_map, List.length_map] at hlength
      rw [hleaves, hlength]
    refine ⟨e' :: es', by rw [List.map_cons, List.map_cons, hsize, hsizes], ⟨hplaced, hplaced'⟩, ?_⟩
    rw [leavesOf, List.flatMap_cons, hleaves]
    exact congrArg (vs1 ++ ·) hleaves'

namespace LogEvent

/-! ## What the parser adds -/

/-- The values of `ev` are kept, if with other annotations, and values with the fields `fs` are added. -/
structure Adds (ev ev' : LogEvent) (fs : List Field) : Prop where
  tag : ev'.mTagId = ev.mTagId
  fields : ev'.mValues.map (·.mField) = ev.mValues.map (·.mField) ++ fs

theorem Adds.nothing {ev ev' : LogEvent} (htag : ev'.mTagId = ev.mTagId) (hvalues : ev'.mValues = ev.mValues) : Adds ev ev' [] :=
  ⟨htag, by rw [hvalues, List.append_nil]⟩

theorem Adds.refl (ev : LogEvent) : Adds ev ev [] := .nothing rfl rfl

variable {ev ev' ev'' : LogEvent}

theorem Adds.trans {fs fs' : List Field} (h : Adds ev ev' fs) (h' : Adds ev' ev'' fs') :
    Adds ev ev'' (fs ++ fs') :=
  ⟨h'.tag.trans h.tag, by rw [h'.fields, h.fields, List.append_assoc]⟩

theorem Adds.before {fs : List Field} (h : Adds ev ev' []) (h' : Adds ev' ev'' fs) : Adds ev ev'' fs :=
  h.trans h'

theorem Adds.after {fs : List Field} (h : Adds ev ev' fs) (h' : Adds ev' ev'' []) : Adds ev ev'' fs := by
  have hall := h.trans h'
  rwa [List.append_nil] at hall

theorem adds_invalid (ev : LogEvent) : Adds ev ev.invalid [] := .nothing rfl rfl

theorem adds_check (ev : LogEvent) (c : Bool) : Adds ev (ev.check c) [] := by
  unfold check
  split
  · exact .refl ev
  · exact adds_invalid ev

theorem adds_annotate (ev : LogEvent) (i : Nat) (f : Annotations → Annotations) : Adds ev (ev.annotate i f) [] := by
  refine ⟨rfl, ?_⟩
  rw [List.append_nil]
  unfold annotate
  dsimp only
  apply List.ext_getElem?
  intro j
  rw [List.getElem?_map, List.getElem?_map, List.getElem?_modify]
  cases ev.mValues[j]? with
  | none => rfl
  | some v =>
    by_cases hij : i = j
    · simp [hij]
    · simp [hij]

variable (mem : Memory)

theorem adds_readNextValue (size : Nat) (ev : LogEvent) : Adds ev (ev.readNextValue mem size).1 [] := by
  unfold readNextValue
  split
  · exact adds_invalid ev
  · exact .nothing rfl rfl

theorem adds_addToValues (ev : LogEvent) (field node number : Nat) (value : Value) (lastNode : Bool) :
    Adds ev (ev.addToValues (posOf field node number) 2 value (lastOf lastNode))
      [nodeField ev.mTagId field node number lastNode] :=
  ⟨rfl, by simp [addToValues, nodeField, lastOf, List.range'_succ]⟩

theorem adds_addToValues_element (ev : LogEvent) (field : Nat) (value : Value) :
    Adds ev (ev.addToValues (posOf field 1 1) 0 value (lastOf false)) [elementField ev.mTagId field] :=
  ⟨rfl, by simp [addToValues, elementField]⟩

/-! ## Annotations -/

theorem adds_parseIsUidAnnotation (ev : LogEvent) (annotationType : Nat) :
    Adds ev (ev.parseIsUidAnnotation mem annotationType) [] := by
  unfold parseIsUidAnnotation
  split
  · exact adds_invalid ev
  · refine (adds_readNextValue mem 1 ev).before (.after ?_ (adds_annotate _ _ _))
    split
    · exact .nothing rfl rfl
    · exact .refl _

theorem adds_parseTruncateTimestampAnnotation (ev : LogEvent) (annotationType : Nat) :
    Adds ev (ev.parseTruncateTimestampAnnotation mem annotationType) [] := by
  unfold parseTruncateTimestampAnnotation
  split
  · exact adds_invalid ev
  · exact (adds_readNextValue mem 1 ev).before (.nothing rfl rfl)

theorem adds_parseValueAnnotation (ev : LogEvent) (annotationType : Nat) (set : Bool → Annotations → Annotations) :
    Adds ev (ev.parseValueAnnotation mem annotationType set) [] := by
  unfold parseValueAnnotation
  split
  · exact adds_invalid ev
  · exact (adds_readNextValue mem 1 ev).before (adds_annotate _ _ _)

theorem adds_parsePrimaryFieldFirstUidAnnotation (ev : LogEvent) (annotationType : Nat) (firstUidInChainIndex : Option Nat) :
    Adds ev (ev.parsePrimaryFieldFirstUidAnnotation mem annotationType firstUidInChainIndex) [] := by
  unfold parsePrimaryFieldFirstUidAnnotation
  split
  · exact adds_invalid ev
  · split
    · exact adds_invalid ev
    split
    · exact adds_invalid ev
    · exact (adds_readNextValue mem 1 ev).before (adds_annotate _ _ _)

theorem adds_parseExclusiveStateAnnotation (ev : LogEvent) (annotationType : Nat) :
    Adds ev (ev.parseExclusiveStateAnnotation mem annotationType) [] := by
  unfold parseExclusiveStateAnnotation
  split
  · exact adds_invalid ev
  split
  · exact adds_invalid ev
  · have hread := adds_readNextValue mem 1 ev
    generalize ev.readNextValue mem 1 = r at hread
    have hset : Adds r.1 { r.1 with mExclusiveStateFieldIndex := (r.1.mValues.length - 1 : Nat) } [] := .nothing rfl rfl
    exact hread.before (hset.before (adds_annotate _ _ _))

theorem adds_parseTriggerStateResetAnnotation (ev : LogEvent) (annotationType : Nat) :
    Adds ev (ev.parseTriggerStateResetAnnotation mem annotationType) [] := by
  unfold parseTriggerStateResetAnnotation
  split
  · exact adds_invalid ev
  · exact (adds_readNextValue mem 4 ev).before (.nothing rfl rfl)

theorem adds_parseAnnotation_some (ev : LogEvent) (annotationId annotationType : Nat) (firstUidInChainIndex : Option Nat) :
    ∀ ev', ev.parseAnnotation mem annotationId annotationType firstUidInChainIndex = some ev' → Adds ev ev' [] := by
  intro ev' h
  unfold parseAnnotation at h
  split at h
  · cases h; exact adds_parseIsUidAnnotation mem ev _
  split at h
  · cases h; exact adds_parseTruncateTimestampAnnotation mem ev _
  split at h
  · cases h; exact adds_parseValueAnnotation mem ev _ _
  split at h
  · cases h; exact adds_parsePrimaryFieldFirstUidAnnotation mem ev _ _
  split at h
  · cases h; exact adds_parseExclusiveStateAnnotation mem ev _
  split at h
  · cases h; exact adds_parseTriggerStateResetAnnotation mem ev _
  split at h
  · cases h; exact adds_parseValueAnnotation mem ev _ _
  · cases h

theorem adds_parseAnnotations (firstUidInChainIndex : Option Nat) (numAnnotations : Nat) (ev : LogEvent) :
    Adds ev (ev.parseAnnotations mem firstUidInChainIndex numAnnotations) [] := by
  induction numAnnotations generalizing ev with
  | zero => exact .refl ev
  | succ k ih =>
    unfold parseAnnotations
    dsimp only
    refine (adds_readNextValue mem 1 ev).before ((adds_readNextValue mem 1 _).before ?_)
    split
    · rename_i ev' h
      exact (adds_parseAnnotation_some mem _ _ _ _ ev' h).before (ih ev')
    · exact adds_invalid _

/-! ## Values -/

theorem Adds.value {ev ev' : LogEvent} {pos : Nat → BitVec 32} {depth : Nat} {value : Value} {last : Nat → Bool} {f : Int → Field}
    (h : Adds ev ev' []) (hadd : Adds ev' (ev'.addToValues pos depth value last) [f ev'.mTagId]) (numAnnotations : Nat) :
    Adds ev ((ev'.addToValues pos depth value last).parseAnnotations mem none numAnnotations) [f ev.mTagId] := by
  rw [h.tag] at hadd
  exact (h.before hadd).after (adds_parseAnnotations mem none numAnnotations _)

section

variable {pos : Nat → BitVec 32} {depth : Nat} {last : Nat → Bool} (f : Int → Field)
  (hadd : ∀ ev value, Adds ev (ev.addToValues pos depth value last) [f ev.mTagId])
include hadd

theorem adds_parseInt32 (numAnnotations : Nat) (ev : LogEvent) :
    Adds ev (ev.parseInt32 mem pos depth last numAnnotations) [f ev.mTagId] :=
  Adds.value (f := f) mem (adds_readNextValue mem 4 ev) (hadd _ _) numAnnotations

theorem adds_parseInt64 (numAnnotations : Nat) (ev : LogEvent) :
    Adds ev (ev.parseInt64 mem pos depth last numAnnotations) [f ev.mTagId] :=
  Adds.value (f := f) mem (adds_readNextValue mem 8 ev) (hadd _ _) numAnnotations

theorem adds_parseFloat (numAnnotations : Nat) (ev : LogEvent) :
    Adds ev (ev.parseFloat mem pos depth last numAnnotations) [f ev.mTagId] :=
  Adds.value (f := f) mem (adds_readNextValue mem 4 ev) (hadd _ _) numAnnotations

theorem adds_parseBool (numAnnotations : Nat) (ev : LogEvent) :
    Adds ev (ev.parseBool mem pos depth last numAnnotations) [f ev.mTagId] :=
  Adds.value (f := f) mem (adds_readNextValue mem 1 ev) (hadd _ _) numAnnotations

theorem adds_parseBytes (numAnnotations : Nat) (ofBytes : List UInt8 → Value) (ev : LogEvent)
    (hvalid : (ev.parseBytes mem pos depth last numAnnotations ofBytes).mValid = true) :
    Adds ev (ev.parseBytes mem pos depth last numAnnotations ofBytes) [f ev.mTagId] := by
  unfold parseBytes at hvalid ⊢
  dsimp only at hvalid ⊢
  split at hvalid
  · cases hvalid
  · rename_i hlen
    rw [if_neg hlen]
    have hbytes : Adds ev ((ev.readNextValue mem 4).1.advance (ev.readNextValue mem 4).2) [] :=
      (adds_readNextValue mem 4 ev).before (.nothing rfl rfl)
    exact Adds.value (f := f) mem hbytes (hadd _ _) numAnnotations

end

/-! ## Nodes -/

theorem adds_parsePairValue (field node : Nat) (lastNode : Bool) (ev : LogEvent)
    (hvalid : (ev.parsePairValue mem field node (lastOf lastNode)).mValid = true) :
    ∃ number, 2 ≤ number ∧ number ≤ 5 ∧
      Adds ev (ev.parsePairValue mem field node (lastOf lastNode)) [nodeField ev.mTagId field node number lastNode] := by
  have hread := adds_readNextValue mem 1 ev
  unfold parsePairValue at hvalid ⊢
  dsimp only at hvalid ⊢
  generalize (ev.readNextValue mem 1) = r at hread hvalid ⊢
  rw [← hread.tag]
  have hadd (number : Nat) (ev : LogEvent) (value : Value) := adds_addToValues ev field node number value lastNode
  let f (number : Nat) (tag : Int) : Field := nodeField tag field node number lastNode
  split
  · exact ⟨2, by decide, by decide, hread.before (adds_parseInt32 mem (f 2) (hadd 2) 0 r.1)⟩
  rename_i h1
  rw [if_neg h1] at hvalid
  split
  · exact ⟨3, by decide, by decide, hread.before (adds_parseInt64 mem (f 3) (hadd 3) 0 r.1)⟩
  rename_i h2
  rw [if_neg h2] at hvalid
  split
  · rename_i h3
    rw [if_pos h3] at hvalid
    exact ⟨4, by decide, by decide, hread.before (adds_parseBytes mem (f 4) (hadd 4) 0 _ r.1 hvalid)⟩
  rename_i h3
  rw [if_neg h3] at hvalid
  split
  · exact ⟨5, by decide, by decide, hread.before (adds_parseFloat mem (f 5) (hadd 5) 0 r.1)⟩
  · rename_i h4
    rw [if_neg h4] at hvalid
    cases hvalid

/-- The fields of a list of nodes at an element. -/
def fieldsOfNodes (nodes : List EventNode) : List Field := (nodes.flatMap EventNode.leaves).map (·.mField)

theorem Adds.node {ev ev' ev'' ev3 : LogEvent} {field node number k : Nat} {nodes : List EventNode} (hlen : nodes.length = k)
    (hlow : 2 ≤ number) (hhigh : number ≤ 5) (h1 : Adds ev ev' [nodeField ev.mTagId field node 1 (decide (k = 0))])
    (h2 : Adds ev' ev'' [nodeField ev'.mTagId field node number (decide (k = 0))])
    (h3 : Adds ev'' ev3 (fieldsOfNodes nodes)) (hplaced : PlacedNodes ev''.mTagId field (node + 1) nodes) :
    ∃ n : EventNode, PlacedNodes ev.mTagId field node (n :: nodes) ∧ Adds ev ev3 (fieldsOfNodes (n :: nodes)) := by
  have hempty : decide (k = 0) = nodes.isEmpty := by cases nodes <;> simp [← hlen]
  rw [h2.tag, h1.tag] at hplaced
  rw [h1.tag] at h2
  refine ⟨⟨⟨nodeField ev.mTagId field node 1 (decide (k = 0)), .UNKNOWN, {}⟩, number,
    ⟨nodeField ev.mTagId field node number (decide (k = 0)), .UNKNOWN, {}⟩⟩, ⟨?_, hplaced⟩, h1.trans (h2.trans h3)⟩
  rw [hempty]
  exact ⟨rfl, rfl, hlow, hhigh⟩

theorem adds_parsePairs (field numPairs k : Nat) (hk : k ≤ numPairs) (ev : LogEvent)
    (hvalid : (ev.parsePairs mem field numPairs k).mValid = true) :
    ∃ nodes : List EventNode, nodes.length = k ∧ PlacedNodes ev.mTagId field (numPairs - k + 1) nodes ∧
      Adds ev (ev.parsePairs mem field numPairs k) (fieldsOfNodes nodes) := by
  induction k generalizing ev with
  | zero => exact ⟨[], rfl, trivial, .refl ev⟩
  | succ k ih =>
    have hnode : numPairs - (k + 1) + 1 = numPairs - k := by omega
    rw [hnode]
    unfold parsePairs at hvalid ⊢
    dsimp only at hvalid ⊢
    have h1 := adds_parseInt32 mem (fun tag => nodeField tag field (numPairs - k) 1 (decide (k = 0)))
      (fun ev value => adds_addToValues ev field (numPairs - k) 1 value (decide (k = 0))) 0 ev
    generalize (ev.parseInt32 mem (posOf field (numPairs - k) 1) 2 (lastOf (decide (k = 0))) 0) = ev1 at hvalid h1 ⊢
    have hpair := (steps_parsePairs mem field numPairs k _).valid hvalid
    obtain ⟨number, hlow, hhigh, h2⟩ := adds_parsePairValue mem field (numPairs - k) (decide (k = 0)) ev1 hpair
    obtain ⟨nodes, hlen, hplaced, h3⟩ := ih (by omega) _ hvalid
    obtain ⟨n, hplaced', hadds⟩ := Adds.node hlen hlow hhigh h1 h2 h3 hplaced
    exact ⟨n :: nodes, by simp [hlen], hplaced', hadds⟩

theorem adds_parseNodes (field numNodes k : Nat) (hk : k ≤ numNodes) (ev : LogEvent)
    (hvalid : (ev.parseNodes mem field numNodes k).mValid = true) :
    ∃ nodes : List EventNode, nodes.length = k ∧ PlacedNodes ev.mTagId field (numNodes - k + 1) nodes ∧
      Adds ev (ev.parseNodes mem field numNodes k) (fieldsOfNodes nodes) := by
  induction k generalizing ev with
  | zero => exact ⟨[], rfl, trivial, .refl ev⟩
  | succ k ih =>
    have hnode : numNodes - (k + 1) + 1 = numNodes - k := by omega
    rw [hnode]
    unfold parseNodes at hvalid ⊢
    dsimp only at hvalid ⊢
    have h1 := adds_parseInt32 mem (fun tag => nodeField tag field (numNodes - k) 1 (decide (k = 0)))
      (fun ev value => adds_addToValues ev field (numNodes - k) 1 value (decide (k = 0))) 0 ev
    generalize (ev.parseInt32 mem (posOf field (numNodes - k) 1) 2 (lastOf (decide (k = 0))) 0) = ev1 at hvalid h1 ⊢
    have hstring := (steps_parseNodes mem field numNodes k _).valid hvalid
    have h2 := adds_parseBytes mem (fun tag => nodeField tag field (numNodes - k) 2 (decide (k = 0)))
      (fun ev value => adds_addToValues ev field (numNodes - k) 2 value (decide (k = 0))) 0 .STRING ev1 hstring
    obtain ⟨nodes, hlen, hplaced, h3⟩ := ih (by omega) _ hvalid
    obtain ⟨n, hplaced', hadds⟩ := Adds.node hlen (by decide) (by decide) h1 h2 h3 hplaced
    exact ⟨n :: nodes, by simp [hlen], hplaced', hadds⟩

theorem adds_parseKeyValuePairs (field numAnnotations : Nat) (ev : LogEvent)
    (hvalid : (ev.parseKeyValuePairs mem field numAnnotations).mValid = true) :
    ∃ nodes : List EventNode, PlacedNodes ev.mTagId field 1 nodes ∧
      Adds ev (ev.parseKeyValuePairs mem field numAnnotations) (fieldsOfNodes nodes) := by
  have hread := adds_readNextValue mem 1 ev
  unfold parseKeyValuePairs at hvalid ⊢
  dsimp only at hvalid ⊢
  generalize (ev.readNextValue mem 1) = r at hread hvalid ⊢
  have hpairs := (steps_parseAnnotations mem _ _ _).valid hvalid
  obtain ⟨nodes, -, hplaced, hadds⟩ := adds_parsePairs mem field r.2 r.2 (le_refl _) r.1 hpairs
  rw [Nat.sub_self, hread.tag] at hplaced
  exact ⟨nodes, hplaced, (hread.before hadds).after (adds_parseAnnotations mem none _ _)⟩

theorem adds_parseAttributionChain (field numAnnotations : Nat) (ev : LogEvent)
    (hvalid : (ev.parseAttributionChain mem field numAnnotations).mValid = true) :
    ∃ nodes : List EventNode, PlacedNodes ev.mTagId field 1 nodes ∧
      Adds ev (ev.parseAttributionChain mem field numAnnotations) (fieldsOfNodes nodes) := by
  have hread := adds_readNextValue mem 1 ev
  unfold parseAttributionChain at hvalid ⊢
  dsimp only at hvalid ⊢
  generalize (ev.readNextValue mem 1) = r at hread hvalid ⊢
  generalize hev1 : r.1.parseNodes mem field r.2 r.2 = ev1 at hvalid ⊢
  -- the range of the chain is recorded, unless there are too many values
  have hrange : ∀ ev2 : LogEvent, Steps ev1 ev2 → Adds ev1 ev2 [] →
      (if ev2.mValid = true then ev2.parseAnnotations mem (some ev.mValues.length) numAnnotations else ev2).mValid = true →
      ev1.mValid = true ∧
        Adds ev1 (if ev2.mValid = true then ev2.parseAnnotations mem (some ev.mValues.length) numAnnotations else ev2) [] := by
    intro ev2 hsteps hadds h
    have h2 : ev2.mValid = true := by
      by_contra hc
      rw [if_neg hc] at h
      exact hc h
    rw [if_pos h2]
    exact ⟨hsteps.valid h2, hadds.before (adds_parseAnnotations mem _ _ _)⟩
  obtain ⟨h1, hadds2⟩ := hrange _ (by
      split
      · exact steps_invalid ev1
      split
      · exact .same rfl rfl rfl id
      · exact .refl ev1) (by
      split
      · exact adds_invalid ev1
      split
      · exact .nothing rfl rfl
      · exact .refl ev1) hvalid
  rw [← hev1] at h1
  obtain ⟨nodes, -, hplaced, hadds⟩ := adds_parseNodes mem field r.2 r.2 (le_refl _) r.1 h1
  rw [hev1] at hadds
  rw [Nat.sub_self, hread.tag] at hplaced
  exact ⟨nodes, hplaced, (hread.before hadds).after hadds2⟩

/-! ## Elements -/

theorem adds_parseElement (field : Nat) (ev : LogEvent) (hvalid : (ev.parseElement mem field).mValid = true) :
    ∃ e : EventElement, e.PlacedAt ev.mTagId field ∧ Adds ev (ev.parseElement mem field) (e.leaves.map (·.mField)) := by
  have hread := adds_readNextValue mem 1 ev
  unfold parseElement parseTyped at hvalid ⊢
  dsimp only at hvalid ⊢
  generalize (ev.readNextValue mem 1) = r at hread hvalid ⊢
  rw [← hread.tag]
  let f (tag : Int) : Field := elementField tag field
  have hadd (ev : LogEvent) (value : Value) := adds_addToValues_element ev field value
  have hleaf : ∀ ev', Adds r.1 ev' [f r.1.mTagId] →
      ∃ e : EventElement, e.PlacedAt r.1.mTagId field ∧ Adds ev ev' (e.leaves.map (·.mField)) := fun ev' h =>
    ⟨.leaf ⟨f r.1.mTagId, .UNKNOWN, {}⟩, rfl, hread.before h⟩
  have hlist : ∀ ev', (∃ nodes, PlacedNodes r.1.mTagId field 1 nodes ∧ Adds r.1 ev' (fieldsOfNodes nodes)) →
      ∃ e : EventElement, e.PlacedAt r.1.mTagId field ∧ Adds ev ev' (e.leaves.map (·.mField)) := by
    rintro ev' ⟨nodes, hplaced, h⟩
    exact ⟨.list nodes, hplaced, hread.before h⟩
  split
  · exact hleaf _ (adds_parseBool mem f hadd _ r.1)
  rename_i h1
  rw [if_neg h1] at hvalid
  split
  · exact hleaf _ (adds_parseInt32 mem f hadd _ r.1)
  rename_i h2
  rw [if_neg h2] at hvalid
  split
  · exact hleaf _ (adds_parseInt64 mem f hadd _ r.1)
  rename_i h3
  rw [if_neg h3] at hvalid
  split
  · exact hleaf _ (adds_parseFloat mem f hadd _ r.1)
  rename_i h4
  rw [if_neg h4] at hvalid
  split
  · rename_i h5
    rw [if_pos h5] at hvalid
    exact hleaf _ (adds_parseBytes mem f hadd _ _ r.1 hvalid)
  rename_i h5
  rw [if_neg h5] at hvalid
  split
  · rename_i h6
    rw [if_pos h6] at hvalid
    exact hleaf _ (adds_parseBytes mem f hadd _ _ r.1 hvalid)
  rename_i h6
  rw [if_neg h6] at hvalid
  split
  · rename_i h7
    rw [if_pos h7] at hvalid
    exact hlist _ (adds_parseKeyValuePairs mem field _ r.1 hvalid)
  rename_i h7
  rw [if_neg h7] at hvalid
  split
  · rename_i h8
    rw [if_pos h8] at hvalid
    exact hlist _ (adds_parseAttributionChain mem field _ r.1 hvalid)
  rename_i h8
  rw [if_neg h8] at hvalid
  split at hvalid
  · cases hvalid
  · cases hvalid

/-- The values of the event are the elements read from left to right, each at its place. -/
structure Views (ev : LogEvent) (es : List EventElement) : Prop where
  placed : PlacedElements ev.mTagId 1 es
  leaves : leavesOf es = ev.mValues

theorem Views.add {ev ev' : LogEvent} {es : List EventElement} {e : EventElement} (h : Views ev es)
    (he : e.PlacedAt ev.mTagId (es.length + 1)) (hadds : Adds ev ev' (e.leaves.map (·.mField))) :
    ∃ es', es'.length = es.length + 1 ∧ Views ev' es' := by
  rw [Nat.add_comm] at he
  have hfields : ev'.mValues.map (·.mField) = (leavesOf (es ++ [e])).map (·.mField) := by
    rw [hadds.fields, ← h.leaves, leavesOf, leavesOf, List.flatMap_append, List.map_append]
    simp
  obtain ⟨es', hsizes, hplaced, hleaves⟩ := (h.placed.append he).refill hfields
  have hlen := congrArg List.length hsizes
  rw [List.length_map, List.length_map, List.length_append] at hlen
  rw [← hadds.tag] at hplaced
  exact ⟨es', hlen, hplaced, hleaves⟩

theorem views_parseElements (numElements k : Nat) (hk : k ≤ numElements) {ev : LogEvent} {es : List EventElement}
    (h : Views ev es) (hes : es.length = numElements - k) (hvalid : (ev.parseElements mem numElements k).mValid = true) :
    ∃ es', es'.length = numElements ∧ Views (ev.parseElements mem numElements k) es' := by
  induction k generalizing ev es with
  | zero => exact ⟨es, hes, h⟩
  | succ k ih =>
    unfold parseElements at hvalid ⊢
    split at hvalid
    · rename_i hev
      rw [if_pos hev]
      have helement := (steps_parseElements mem numElements k _).valid hvalid
      obtain ⟨e, hplaced, hadds⟩ := adds_parseElement mem (numElements - k) ev helement
      have hfield : numElements - k = es.length + 1 := by omega
      rw [hfield] at hplaced
      obtain ⟨es', hlen, h'⟩ := h.add hplaced hadds
      exact ih (by omega) h' (by omega) hvalid
    · rename_i hev
      exact absurd hvalid hev

/-! ## The buffer -/

theorem parseHeader_values {ev : LogEvent} (hev : ev.mValues = []) :
    (ev.parseHeader mem).1.mValues = [] ∧ ((ev.parseHeader mem).1.mValid = true → (ev.parseHeader mem).2 ≤ 125) := by
  have hchecked (c : Nat → Bool) (ev : LogEvent) : Adds ev (ev.readChecked mem c).1 [] :=
    (adds_readNextValue mem 1 ev).before (adds_check _ _)
  have hstart (ev : LogEvent) : Adds ev (ev.readTimestamp mem) [] := (adds_readNextValue mem 8 ev).before (.nothing rfl rfl)
  unfold parseHeader
  dsimp only
  have h1 := hchecked (fun typeInfo => decide (getTypeId typeInfo = OBJECT_TYPE)) ev
  generalize (ev.readChecked mem fun typeInfo => decide (getTypeId typeInfo = OBJECT_TYPE)) = r1 at h1 ⊢
  have h2 := hchecked (fun numElements => decide (2 ≤ numElements) && decide (numElements ≤ 127)) r1.1
  have hcount : (r1.1.readChecked mem fun numElements => decide (2 ≤ numElements) && decide (numElements ≤ 127)).1.mValid = true →
      ((r1.1.readChecked mem fun numElements => decide (2 ≤ numElements) && decide (numElements ≤ 127)).2 + 254) % 256 ≤ 125 := by
    intro h
    unfold readChecked check at h ⊢
    dsimp only at h ⊢
    split at h
    · rename_i hc
      simp only [Bool.and_eq_true, decide_eq_true_eq] at hc
      omega
    · cases h
  generalize (r1.1.readChecked mem fun numElements => decide (2 ≤ numElements) && decide (numElements ≤ 127)) = r2 at h2 hcount ⊢
  have h3 := hchecked (fun typeInfo => decide (getTypeId typeInfo = INT64_TYPE)) r2.1
  have s3 := steps_readChecked mem (fun typeInfo => decide (getTypeId typeInfo = INT64_TYPE)) r2.1
  generalize (r2.1.readChecked mem fun typeInfo => decide (getTypeId typeInfo = INT64_TYPE)) = r3 at h3 s3 ⊢
  have h4 := hstart r3.1
  have s4 := steps_readTimestamp mem r3.1
  generalize r3.1.readTimestamp mem = ev4 at h4 s4 ⊢
  have h5 := hchecked (fun typeInfo => decide (getTypeId typeInfo = INT32_TYPE)) ev4
  have s5 := steps_readChecked mem (fun typeInfo => decide (getTypeId typeInfo = INT32_TYPE)) ev4
  generalize (ev4.readChecked mem fun typeInfo => decide (getTypeId typeInfo = INT32_TYPE)) = r5 at h5 s5 ⊢
  have htag : (r5.1.readTagId mem).mValues.map (·.mField) = [] := by
    have hread := (h1.before (h2.before (h3.before (h4.before (h5.before (adds_readNextValue mem 4 r5.1)))))).fields
    rwa [hev] at hread
  have s6 := steps_readTagId mem r5.1
  have hannotations := adds_parseAnnotations mem none (getNumAnnotations r5.2) (r5.1.readTagId mem)
  have s7 := steps_parseAnnotations mem none (getNumAnnotations r5.2) (r5.1.readTagId mem)
  constructor
  · have hall := hannotations.fields
    rw [htag] at hall
    exact List.map_eq_nil_iff.1 hall
  · intro hvalid
    exact hcount (s3.valid (s4.valid (s5.valid (s6.valid (s7.valid hvalid)))))

theorem parseBuffer_views {ev : LogEvent} (hev : ev.mValues = []) {buf len : Nat} (h : (ev.parseBuffer mem buf len).2 = true) :
    ∃ es : List EventElement, es.length ≤ 125 ∧ Views (ev.parseBuffer mem buf len).1 es := by
  unfold parseBuffer at h ⊢
  dsimp only at h ⊢
  generalize hstart : ({ ev with mBuf := buf, mRemainingLen := len % 2 ^ 32 } : LogEvent) = start at h ⊢
  have hempty : start.mValues = [] := by rw [← hstart]; exact hev
  obtain ⟨hvalues, hcount⟩ := parseHeader_values mem hempty
  generalize start.parseHeader mem = r at h hvalues hcount ⊢
  have hparsed := (steps_check _ _).valid h
  have hheader := (steps_parseElements mem r.2 r.2 r.1).valid hparsed
  have hnone : Views r.1 [] := ⟨trivial, hvalues.symm⟩
  obtain ⟨es, hlen, hviews⟩ := views_parseElements mem r.2 r.2 (le_refl _) hnone (Nat.sub_self _).symm hparsed
  refine ⟨es, by rw [hlen]; exact hcount hheader, ?_⟩
  have hchecked := adds_check (r.1.parseElements mem r.2 r.2) (decide ((r.1.parseElements mem r.2 r.2).mRemainingLen = 0))
  have hsame : ((r.1.parseElements mem r.2 r.2).check (decide ((r.1.parseElements mem r.2 r.2).mRemainingLen = 0))).mValues =
      (r.1.parseElements mem r.2 r.2).mValues := by
    unfold check
    split <;> rfl
  exact ⟨by rw [hchecked.tag]; exact hviews.placed, by rw [hsame]; exact hviews.leaves⟩

end LogEvent

end Statsd.Logd
