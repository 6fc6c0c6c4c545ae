import CodeAtlas.Proofs.Graph.Rows

/-! # Links however texts are seen

An extraction of texts and the same extraction seen as values have the same stages and links. What
is shown of them is the same.
-/

namespace CodeAtlas

/-- Applies a function in every text position. -/
def FlowEdge.map {α β : Type} (f : α → β) (e : FlowEdge α) : FlowEdge β :=
  ⟨e.supplier.map f, e.consumer.map f, f e.binding⟩

namespace Flow

def boundValue (x : Scalar × String × Stage String) : Scalar × Value × Stage Value :=
  (x.1, .text x.2.1, x.2.2.map .text)

theorem keyed_map (stages : List (Stage String)) :
    keyed (stages.map (·.map Value.text)) = .ok ((bound stages).map boundValue) := by
  let pairs := stages.filterMap fun s => s.binding.map fun b => (b, s)
  have hpairs : ((stages.map (·.map Value.text)).filterMap fun s =>
      s.binding.map fun b => (b, s)) =
        pairs.map fun p => (Value.text p.1, p.2.map Value.text) := by
    rw [List.filterMap_map, List.map_filterMap]
    refine List.filterMap_congr fun s _ => ?_
    cases h : s.binding <;> simp [Stage.map, h]
  have hbound : (bound stages).map boundValue =
      pairs.map fun p => (.text p.1, Value.text p.1, p.2.map Value.text) := by
    rw [bound, List.map_filterMap, List.map_filterMap]
    refine List.filterMap_congr fun s _ => ?_
    cases s.binding <;> rfl
  rw [keyed, hpairs, List.mapM_map, hbound]
  exact mapM_comp_ok fun _ _ => rfl

theorem groups_map (xs : List (Scalar × String × Stage String)) :
    groups (xs.map boundValue) =
      (groups xs).map fun (b, group) => (Value.text b, group.map (·.map Value.text)) := by
  have hkeys : (xs.map boundValue).map (·.1) = xs.map (·.1) := by
    rw [List.map_map]
    rfl
  rw [groups, groups, hkeys, List.map_filterMap]
  refine List.filterMap_congr fun k _ => ?_
  have hfilter : (xs.map boundValue).filter (·.1 == k) = (xs.filter (·.1 == k)).map boundValue := by
    rw [List.filter_map]
    rfl
  rw [hfilter]
  cases hxs : xs.filter (·.1 == k) with
  | nil => rfl
  | cons x rest => simp [boundValue]

theorem links_map (b : String) (group : List (Stage String)) :
    links (Value.text b) (group.map (·.map Value.text)) =
      (links b group).map (·.map Value.text) := by
  rw [links, links, List.flatMap_map, List.map_flatMap]
  refine List.flatMap_congr fun up _ => ?_
  rw [List.filter_map, List.map_map, List.map_map]
  rfl

theorem edges_map (e : FileExtraction String) :
    edges (e.map Value.text) = .ok ((linksOf e.stages).map (·.map Value.text)) := by
  have hlinks : (groups ((bound e.stages).map boundValue)).flatMap
      (fun (b, group) => links b group) =
      ((groups (bound e.stages)).flatMap fun (b, group) => links b group).map
        (·.map Value.text) := by
    rw [groups_map, List.flatMap_map, List.map_flatMap]
    exact List.flatMap_congr fun (b, group) _ => links_map b group
  have hsort (es : List (FlowEdge String)) :
      (es.map (·.map Value.text)).mergeSort precedes =
        (es.mergeSort precedes).map (·.map Value.text) := by
    refine (List.map_mergeSort ?_).symm
    intro a _ b _
    rfl
  rw [edges, FileExtraction.map, keyed_map, ok_bind, hlinks, hsort]
  rfl

theorem nodeValue_map (path : String) (s : Stage String) :
    nodeValue (Value.text path) (s.map Value.text) = nodeValue path s := by
  obtain ⟨tag, operation, arguments, binding, line, ordinal⟩ := s
  have harguments : cells (arguments.map Value.text) = cells arguments := by
    rw [cells, cells, List.map_map]
    rfl
  have hbinding : cell? (binding.map Value.text) = cell? binding := by
    cases binding <;> rfl
  simp only [nodeValue, Stage.toFields, Stage.map, harguments, hbinding]
  rfl

end Flow

end CodeAtlas
