import Interchange.Proofs.Mapping
import Interchange.ShippingNotice

/-!
# Which lines a document has

Every node that a parent selects gives one line, under the first parent that selects it. The lines come
parent by parent, and in document order under one parent.
-/

namespace Interchange

open Xml (Document)
open LineGroup (parents membersOf)

variable {L : Type} {transforms : TransformTable} {shape : Shape L} {d : Document} {rules : List Rule}
  {p : String} {ps : List String}

/-! ## The places -/

theorem mem_placesUnder {place : LinePlace} : place ∈ placesUnder d ps p ↔
    place.parent = p ∧ 0 < place.number ∧ (d.repeated p)[place.number - 1]? = some place.node ∧
      ps.find? (d.repeats place.node) = some p := by
  obtain ⟨parent, number, node⟩ := place
  simp only [placesUnder, List.mem_filterMap, Prod.exists, Option.ite_none_right_eq_some,
    Option.some.injEq, LinePlace.mk.injEq]
  constructor
  · rintro ⟨n, k, hmem, hfind, rfl, rfl, rfl⟩
    obtain ⟨hk, hn⟩ := List.mk_mem_zipIdx_iff_le_and_getElem?_sub.1 hmem
    exact ⟨rfl, hk, hn, hfind⟩
  · rintro ⟨rfl, hk, hn, hfind⟩
    exact ⟨node, number, List.mk_mem_zipIdx_iff_le_and_getElem?_sub.2 ⟨hk, hn⟩, hfind, rfl, rfl, rfl⟩

theorem mem_linePlaces {place : LinePlace} : place ∈ linePlaces d rules ↔
    0 < place.number ∧ (d.repeated place.parent)[place.number - 1]? = some place.node ∧
      (parents rules).find? (d.repeats place.node) = some place.parent := by
  simp only [linePlaces, List.mem_flatMap, mem_placesUnder]
  constructor
  · rintro ⟨p, _, rfl, h⟩
    exact h
  · rintro ⟨hk, hn, hfind⟩
    exact ⟨place.parent, List.mem_of_find?_eq_some hfind, rfl, hk, hn, hfind⟩

theorem mem_map_node_linePlaces {n : Nat} :
    n ∈ (linePlaces d rules).map (·.node) ↔ ∃ p ∈ parents rules, n ∈ d.repeated p := by
  simp only [List.mem_map, mem_linePlaces]
  constructor
  · rintro ⟨place, ⟨_, hn, hfind⟩, rfl⟩
    exact ⟨place.parent, List.mem_of_find?_eq_some hfind, List.mem_of_getElem? hn⟩
  · rintro ⟨p, hp, hn⟩
    obtain ⟨q, hq⟩ := Option.isSome_iff_exists.1
      (List.find?_isSome.2 ⟨p, hp, Document.repeats_iff.2 hn⟩)
    obtain ⟨k, hk⟩ := List.getElem?_of_mem (Document.repeats_iff.1 (List.find?_some hq))
    exact ⟨⟨q, k + 1, n⟩, ⟨Nat.succ_pos k, hk, hq⟩, rfl⟩

/-! ## Their order -/

/-- Node `m` comes in front of node `n`: an earlier parent selects it first, or the same parent selects
both first and `m` comes first in the document. -/
def Precedes (d : Document) (ps : List String) (m n : Nat) : Prop :=
  ps.findIdx (d.repeats m) < ps.findIdx (d.repeats n) ∨
    ps.findIdx (d.repeats m) = ps.findIdx (d.repeats n) ∧ m < n

theorem Precedes.ne {m n : Nat} (h : Precedes d ps m n) : m ≠ n := by
  rintro rfl
  rcases h with h | h
  · exact Nat.lt_irrefl _ h
  · exact Nat.lt_irrefl _ h.2

theorem findIdx_of_find? {q : String → Bool} {i : Nat} (hps : ps.Nodup) (hi : i < ps.length)
    (h : ps.find? q = some ps[i]) : ps.findIdx q = i := by
  have hlt : ps.findIdx q < ps.length :=
    List.findIdx_lt_length_of_exists ⟨ps[i], List.getElem_mem hi, List.find?_some h⟩
  rw [← List.getElem?_inj hlt hps, ← List.find?_eq_getElem?_findIdx, h, List.getElem?_eq_getElem hi]

theorem placesUnder_pairwise : (placesUnder d ps p).Pairwise fun a b => a.node < b.node := by
  have hnodes : ((d.repeated p).zipIdx 1).Pairwise fun a b => a.1 < b.1 := by
    rw [← List.pairwise_map (R := (· < ·)), List.zipIdx_map_fst]
    exact Document.repeated_pairwise
  rw [placesUnder, List.pairwise_filterMap]
  refine hnodes.imp fun {x y} hxy a ha b hb => ?_
  obtain ⟨_, ha⟩ := Option.ite_none_right_eq_some.1 ha
  obtain ⟨_, hb⟩ := Option.ite_none_right_eq_some.1 hb
  cases ha
  cases hb
  exact hxy

theorem linePlaces_pairwise (rules : List Rule) :
    (linePlaces d rules).Pairwise fun a b => Precedes d (parents rules) a.node b.node := by
  have hps := LineGroup.nodup_parents rules
  -- the place of a parent among all is found again from the nodes that it selects first
  have hrank : ∀ i (hi : i < (parents rules).length),
      ∀ a ∈ placesUnder d (parents rules) (parents rules)[i],
        (parents rules).findIdx (d.repeats a.node) = i := by
    intro i hi a ha
    exact findIdx_of_find? hps hi (mem_placesUnder.1 ha).2.2.2
  rw [linePlaces, List.pairwise_flatMap]
  constructor
  · intro p hp
    obtain ⟨i, hi, rfl⟩ := List.mem_iff_getElem.1 hp
    refine placesUnder_pairwise.imp_of_mem fun {a b} ha hb hab => Or.inr ⟨?_, hab⟩
    rw [hrank i hi a ha, hrank i hi b hb]
  · rw [List.pairwise_iff_getElem]
    intro i j hi hj hij a ha b hb
    refine Or.inl ?_
    rw [hrank i hi a ha, hrank j hj b hb]
    exact hij

/-! ## The lines -/

theorem mapM_lineAt_total (hs : shape.fields.Reliable) (places : List LinePlace) :
    ∃ lines, places.mapM (shape.lineAt transforms d rules) = .ok lines := by
  refine mapM_total fun place _ => ?_
  obtain ⟨record, hrecord⟩ : ∃ record, shape.bound transforms d place.node
    (membersOf rules place.parent) = .ok record := Shape.bound_total hs _
  exact ⟨_, lineAt_eq_ok.2 ⟨record, hrecord, rfl⟩⟩

theorem map_node_of_mapM {places : List LinePlace} {lines : List (BoundLine L)}
    (h : places.mapM (shape.lineAt transforms d rules) = .ok lines) :
    lines.map (·.node) = places.map (·.node) := by
  refine Eq.symm ?_
  rw [← List.forall₂_eq_eq_eq, List.forall₂_map_left_iff, List.forall₂_map_right_iff]
  refine (forall₂_of_mapM h).imp fun place line hline => ?_
  obtain ⟨record, _, rfl⟩ := lineAt_eq_ok.1 hline
  rfl

/-- Binding lines gives one line for each node that a parent of the active rules selects: the new record,
set by the rules of the first such parent, with the errors of these rules and the node's number among
all nodes of that parent. The lines come parent by parent and in document order under one parent; each
rule whose parent is no path is reported, and inactive rules do not count. -/
theorem bindLines_by_first_parent (hs : shape.fields.Reliable) (rules : List Rule) :
    ∃ binding, bindLines transforms shape d rules = .ok binding ∧
      (binding.lines.map (·.node)).Nodup ∧
      (∀ n, n ∈ binding.lines.map (·.node) ↔ ∃ r ∈ rules, r.active ∧
        ∃ nodes, d.selectPath Document.rootId r.parent = .ok nodes ∧ n ∈ nodes) ∧
      (∀ line ∈ binding.lines, ∃ p nodes,
        (parents (activeRules rules)).find? (d.repeats line.node) = some p ∧
        d.selectPath Document.rootId p = .ok nodes ∧
        0 < line.number ∧ nodes[line.number - 1]? = some line.node ∧
        shape.bound transforms d line.node (membersOf (activeRules rules) p) = .ok line.record ∧
        line.errors = shape.flaws transforms d line.node (membersOf (activeRules rules) p)) ∧
      (binding.lines.Pairwise fun a b => Precedes d (parents (activeRules rules)) a.node b.node) ∧
      binding.groupErrors =
        (parents (activeRules rules)).flatMap (errorsUnder (activeRules rules)) ∧
      (∀ others, activeRules others = activeRules rules →
        bindLines transforms shape d others = .ok binding) := by
  obtain ⟨lines, hlines⟩ : ∃ lines, (linePlaces d (activeRules rules)).mapM
    (shape.lineAt transforms d (activeRules rules)) = .ok lines := mapM_lineAt_total hs _
  have hnodes := map_node_of_mapM hlines
  have horder : lines.Pairwise fun a b => Precedes d (parents (activeRules rules)) a.node b.node := by
    rw [← List.pairwise_map, hnodes, List.pairwise_map]
    exact linePlaces_pairwise _
  refine ⟨⟨lines, (parents (activeRules rules)).flatMap (errorsUnder (activeRules rules))⟩,
    by rw [bindLines_eq, hlines]; rfl, ?_, ?_, ?_, horder, rfl, ?_⟩
  · exact List.pairwise_map.2 (horder.imp Precedes.ne)
  · intro n
    rw [hnodes, mem_map_node_linePlaces]
    constructor
    · rintro ⟨p, hp, hn⟩
      obtain ⟨r, hr, rfl⟩ := LineGroup.mem_parents.1 hp
      obtain ⟨hr, hactive⟩ := List.mem_filter.1 hr
      exact ⟨r, hr, hactive, Document.mem_repeated.1 hn⟩
    · rintro ⟨r, hr, hactive, hn⟩
      exact ⟨r.parent, LineGroup.mem_parents.2 ⟨r, List.mem_filter.2 ⟨hr, hactive⟩, rfl⟩,
        Document.mem_repeated.2 hn⟩
  · intro line hline
    obtain ⟨place, hplace, hat⟩ := exists_of_mapM hlines hline
    obtain ⟨record, hrecord, rfl⟩ := lineAt_eq_ok.1 hat
    obtain ⟨hpos, hnum, hfind⟩ := mem_linePlaces.1 hplace
    obtain ⟨nodes, hsel, _⟩ := Document.mem_repeated.1 (List.mem_of_getElem? hnum)
    have hrepeated : d.repeated place.parent = nodes := by simp [Document.repeated, hsel]
    exact ⟨place.parent, nodes, hfind, hsel, hpos, hrepeated ▸ hnum, hrecord, rfl⟩
  · intro others hothers
    rw [bindLines_eq, hothers, hlines]
    rfl

theorem ShippingNotice.Line.fields_reliable : Line.fields.Reliable :=
  FieldTable.Reliable.empty.int32.text.text.text.text.text.float64.text.float64.text.text.boolean

theorem bindLines_by_first_parent_notice :
    ShippingNotice.lineShape.fields.Reliable ∧
      ∃ binding, bindLines .standard ShippingNotice.lineShape
          (Document.empty.append Document.rootId (by decide) .child (.element "Line"))
          [.new "ASN_LINES" "/Line/Item" "item_name", .new "ASN_LINES" "//Line/Qty" "quantity"] =
            .ok binding ∧
        (binding.lines.map (·.node)).Nodup := by
  have hs : ShippingNotice.lineShape.fields.Reliable := ShippingNotice.Line.fields_reliable
  obtain ⟨binding, hbinding, hnodup, _⟩ := bindLines_by_first_parent hs _
  exact ⟨hs, binding, hbinding, hnodup⟩

end Interchange
