import VoteTrace.Proofs.Wire.Rows
import VoteTrace.Wire.Chart
import VoteTrace.Wire.Spread

namespace VoteTrace

open Json

namespace Placement

def IsFinite (p : Placement) : Prop :=
  (∀ q ∈ p.point, q.IsFinite) ∧ ∀ q ∈ p.parentPoint, q.IsFinite

theorem faithful : Faithful IsFinite toJson ofJson? where
  reads {p} hp w hw := by
    obtain ⟨f, rfl, hf, h⟩ := hw.record fieldNames rfl (by decide)
    have hlevel : f.required "level" Value.toUInt32? = some p.level :=
      h.required .word32 trivial (by simp)
    have hparent : f.optional "parent_guid" Value.toText? = some p.parent :=
      h.optional .text (fun _ _ => trivial) (by simp)
    have hnode : f.required "node_guid" Value.toText? = some p.node :=
      h.required .text trivial (by simp)
    have hname : f.required "node_name" Value.toText? = some p.name :=
      h.required .text trivial (by simp)
    have hrelay : f.optional "relay_name" Value.toText? = some p.relay :=
      h.optional .text (fun _ _ => trivial) (by simp)
    have hparentRelay : f.optional "parent_relay" Value.toText? = some p.parentRelay :=
      h.optional .text (fun _ _ => trivial) (by simp)
    have hpoint : f.optional "coordinates" GeoPoint.ofJson? = some p.point :=
      h.optional GeoPoint.faithful hp.1 (by simp)
    have hparentPoint : f.optional "parent_coordinates" GeoPoint.ofJson? = some p.parentPoint :=
      h.optional GeoPoint.faithful hp.2 (by simp)
    have hseen : f.required "seen" Value.toBool? = some p.seen :=
      h.required .bool trivial (by simp)
    simp [ofJson?, hf, hlevel, hparent, hnode, hname, hrelay, hparentRelay, hpoint, hparentPoint,
      hseen]
  ne_null _ := Value.noConfusion
  sound hv hp := by
    simp only [ofJson?, Option.bind_eq_bind, Option.bind_eq_some_iff] at hp
    obtain ⟨f, hf, _, -, _, -, _, -, _, -, _, -, _, -, point, hpoint, parentPoint, hparentPoint,
      _, -, heq⟩ := hp
    cases heq
    have hfields := Fields.isStated_of_ofValue? hv hf
    exact ⟨hfields.optional GeoPoint.faithful hpoint,
      hfields.optional GeoPoint.faithful hparentPoint⟩

end Placement

namespace Tally

theorem faithful : Faithful (fun _ => True) toJson ofJson? where
  reads {t} _ w hw := by
    obtain ⟨f, rfl, hf, h⟩ := hw.record fieldNames rfl (by decide)
    have hpool : f.required "pool_size" Value.toCount? = some t.poolSize :=
      h.required .count trivial (by simp)
    have hhops : f.required "dequeues" Value.toCount? = some t.hops :=
      h.required .count trivial (by simp)
    have hspent : f.required "consumed" Value.toCount? = some t.spent :=
      h.required .count trivial (by simp)
    have hunresolved : f.required "unresolved" Value.toCount? = some t.unresolved :=
      h.required .count trivial (by simp)
    have hrings : f.required "rings" Value.toUInt32? = some t.rings :=
      h.required .word32 trivial (by simp)
    simp [ofJson?, hf, hpool, hhops, hspent, hunresolved, hrings]
  ne_null _ := Value.noConfusion
  sound _ _ := trivial

end Tally

namespace Spread

def IsFinite (s : Spread) : Prop := ∀ p ∈ s.placements, p.IsFinite

theorem faithful : Faithful IsFinite toJson ofJson? where
  reads {s} hs w hw := by
    obtain ⟨f, rfl, hf, h⟩ := hw.record fieldNames rfl (by decide)
    have hplacements : f.required "records" (Value.toList? Placement.ofJson?) =
        some s.placements := h.required Placement.faithful.list hs (by simp)
    have htally : f.required "stats" Tally.ofJson? = some s.tally :=
      h.required Tally.faithful trivial (by simp)
    simp [ofJson?, hf, hplacements, htally]
  ne_null _ := Value.noConfusion
  sound hv hs := by
    simp only [ofJson?, Option.bind_eq_bind, Option.bind_eq_some_iff] at hs
    obtain ⟨f, hf, placements, hplacements, _, -, heq⟩ := hs
    cases heq
    have hall := (Fields.isStated_of_ofValue? hv hf).required Placement.faithful.list hplacements
    exact hall

end Spread

namespace TreeRow

theorem faithful : Faithful (fun _ => True) toJson ofJson? where
  reads {row} _ w hw := by
    obtain ⟨f, rfl, hf, h⟩ := hw.record fieldNames rfl (by decide)
    have hid : f.required "id" Value.toText? = some row.id := h.required .text trivial (by simp)
    have hparent : f.optional "parent" Value.toText? = some row.parent :=
      h.optional .text (fun _ _ => trivial) (by simp)
    have hname : f.required "name" Value.toText? = some row.name :=
      h.required .text trivial (by simp)
    have hrelay : f.optional "relay" Value.toText? = some row.relay :=
      h.optional .text (fun _ _ => trivial) (by simp)
    have hlevel : f.required "level" Value.toUInt32? = some row.level :=
      h.required .word32 trivial (by simp)
    have htooltip : f.required "tooltip" Value.toText? = some row.tooltip :=
      h.required .text trivial (by simp)
    have hseen : f.required "seen" Value.toBool? = some row.seen :=
      h.required .bool trivial (by simp)
    simp [ofJson?, hf, hid, hparent, hname, hrelay, hlevel, htooltip, hseen]
  ne_null _ := Value.noConfusion
  sound _ _ := trivial

end TreeRow

namespace FlowLink

theorem faithful : Faithful (fun _ => True) toJson ofJson? where
  reads {link} _ w hw := by
    obtain ⟨f, rfl, hf, h⟩ := hw.record fieldNames rfl (by decide)
    have hsource : f.required "from" Value.toText? = some link.source :=
      h.required .text trivial (by simp)
    have htarget : f.required "to" Value.toText? = some link.target :=
      h.required .text trivial (by simp)
    have hweight : f.required "weight" Value.toUInt32? = some link.weight :=
      h.required .word32 trivial (by simp)
    have hsourceRelay : f.optional "from_relay" Value.toText? = some link.sourceRelay :=
      h.optional .text (fun _ _ => trivial) (by simp)
    have htargetRelay : f.optional "to_relay" Value.toText? = some link.targetRelay :=
      h.optional .text (fun _ _ => trivial) (by simp)
    simp [ofJson?, hf, hsource, htarget, hweight, hsourceRelay, htargetRelay]
  ne_null _ := Value.noConfusion
  sound _ _ := trivial

end FlowLink

namespace Marker

theorem faithful : Faithful (fun m => m.point.IsFinite) toJson ofJson? where
  reads {m} hm w hw := by
    obtain ⟨f, rfl, hf, h⟩ := hw.record fieldNames rfl (by decide)
    have hpoint : f.required "point" GeoPoint.ofJson? = some m.point :=
      h.required GeoPoint.faithful hm (by simp)
    have hlevel : f.required "hop" Value.toUInt32? = some m.level :=
      h.required .word32 trivial (by simp)
    have hname : f.required "name" Value.toText? = some m.name :=
      h.required .text trivial (by simp)
    simp [ofJson?, hf, hpoint, hlevel, hname]
  ne_null _ := Value.noConfusion
  sound hv hm := by
    simp only [ofJson?, Option.bind_eq_bind, Option.bind_eq_some_iff] at hm
    obtain ⟨f, hf, point, hpoint, _, -, _, -, heq⟩ := hm
    cases heq
    exact (Fields.isStated_of_ofValue? hv hf).required GeoPoint.faithful hpoint

end Marker

namespace Segment

def IsFinite (s : Segment) : Prop := s.source.IsFinite ∧ s.target.IsFinite

theorem faithful : Faithful IsFinite toJson ofJson? where
  reads {s} hs w hw := by
    obtain ⟨f, rfl, hf, h⟩ := hw.record fieldNames rfl (by decide)
    have hsource : f.required "from" GeoPoint.ofJson? = some s.source :=
      h.required GeoPoint.faithful hs.1 (by simp)
    have htarget : f.required "to" GeoPoint.ofJson? = some s.target :=
      h.required GeoPoint.faithful hs.2 (by simp)
    have horder : f.required "order" Value.toUInt32? = some s.order :=
      h.required .word32 trivial (by simp)
    simp [ofJson?, hf, hsource, htarget, horder]
  ne_null _ := Value.noConfusion
  sound hv hs := by
    simp only [ofJson?, Option.bind_eq_bind, Option.bind_eq_some_iff] at hs
    obtain ⟨f, hf, source, hsource, target, htarget, _, -, heq⟩ := hs
    cases heq
    have hfields := Fields.isStated_of_ofValue? hv hf
    exact ⟨hfields.required GeoPoint.faithful hsource, hfields.required GeoPoint.faithful htarget⟩

end Segment

namespace MapView

def IsFinite (view : MapView) : Prop :=
  (∀ p ∈ view.center, p.IsFinite) ∧ (∀ m ∈ view.markers, m.point.IsFinite) ∧
    ∀ s ∈ view.segments, s.IsFinite

theorem faithful : Faithful IsFinite toJson ofJson? where
  reads {view} hview w hw := by
    obtain ⟨hcenter', hmarkers', hsegments'⟩ := hview
    obtain ⟨f, rfl, hf, h⟩ := hw.record fieldNames rfl (by decide)
    have hcenter : f.optional "center" GeoPoint.ofJson? = some view.center :=
      h.optional GeoPoint.faithful hcenter' (by simp)
    have hmarkers : f.required "markers" (Value.toList? Marker.ofJson?) = some view.markers :=
      h.required Marker.faithful.list hmarkers' (by simp)
    have hsegments : f.required "segments" (Value.toList? Segment.ofJson?) =
        some view.segments := h.required Segment.faithful.list hsegments' (by simp)
    simp [ofJson?, hf, hcenter, hmarkers, hsegments]
  ne_null _ := Value.noConfusion
  sound hv hview := by
    simp only [ofJson?, Option.bind_eq_bind, Option.bind_eq_some_iff] at hview
    obtain ⟨f, hf, center, hcenter, markers, hmarkers, segments, hsegments, heq⟩ := hview
    cases heq
    have hfields := Fields.isStated_of_ofValue? hv hf
    have hmarkers' := hfields.required Marker.faithful.list hmarkers
    have hsegments' := hfields.required Segment.faithful.list hsegments
    exact ⟨hfields.optional GeoPoint.faithful hcenter, hmarkers', hsegments'⟩

end MapView

namespace Style

theorem faithful : Faithful (fun _ => True) toJson ofJson? := by
  refine .of_isScalar (fun _ => rfl) (fun _ => Value.noConfusion) fun style => ?_
  cases style <;> rfl

end Style

namespace Drawing

def IsFinite : Drawing → Prop
  | geo view => view.IsFinite
  | _ => True

theorem dataJson_ne_null (d : Drawing) : d.dataJson ≠ .null := by
  cases d <;> exact Value.noConfusion

/-- The data are read as a chart of the style they were drawn in. -/
theorem ofData?_of_pruned {d : Drawing} (hd : d.IsFinite) {w : Value} (hw : d.dataJson.Pruned w) :
    ofData? w d.style = some d := by
  cases d with
  | tree rows =>
      exact congrArg (Option.map tree) (TreeRow.faithful.list.reads (fun _ _ => trivial) hw)
  | flow links =>
      exact congrArg (Option.map flow) (FlowLink.faithful.list.reads (fun _ _ => trivial) hw)
  | geo view => exact congrArg (Option.map geo) (MapView.faithful.reads hd hw)

theorem isFinite_of_ofData? {v : Value} {style : Style} {d : Drawing} (hv : v.IsStated)
    (h : ofData? v style = some d) : d.IsFinite := by
  cases style with
  | tree =>
      obtain ⟨rows, -, rfl⟩ := Option.map_eq_some_iff.mp h
      trivial
  | flow =>
      obtain ⟨links, -, rfl⟩ := Option.map_eq_some_iff.mp h
      trivial
  | geo =>
      obtain ⟨view, hview, rfl⟩ := Option.map_eq_some_iff.mp h
      exact MapView.faithful.sound hv hview

theorem faithful : Faithful IsFinite toJson ofJson? where
  reads {d} hd w hw := by
    obtain ⟨f, rfl, hf, h⟩ := hw.record fieldNames rfl (by decide)
    have hstyle : f.required "style" Style.ofJson? = some d.style :=
      h.required Style.faithful trivial (by simp)
    obtain ⟨data, hdata, hlookup⟩ : ∃ data, d.dataJson.Pruned data ∧ f.lookup "data" = some data :=
      h.lookup d.dataJson_ne_null (by simp)
    have hhead : f.head?.map Prod.fst = some "style" := h.thinned.head_key Value.noConfusion
    have htag : styleOf? (.record f) = Style.ofJson? := rfl
    simp [ofJson?, hf, htag, hstyle, hlookup, hhead, ofData?_of_pruned hd hdata]
  ne_null _ := Value.noConfusion
  sound hv hd := by
    simp only [ofJson?, Option.bind_eq_bind, Option.bind_eq_some_iff] at hd
    obtain ⟨f, hf, style, -, data, hdata, _, -, hofData⟩ := hd
    exact isFinite_of_ofData? ((Fields.isStated_of_ofValue? hv hf).lookup hdata) hofData

end Drawing
end VoteTrace
