import VoteTrace.Proofs.Json.Faithful
import VoteTrace.Wire.Telemetry

namespace VoteTrace

open Json

namespace GeoPoint

def IsFinite (p : GeoPoint) : Prop := FiniteFloat p.lat ∧ FiniteFloat p.long

theorem faithful : Faithful IsFinite toJson ofJson? where
  reads {p} hp w hw := by
    obtain ⟨f, rfl, hf, hprunes⟩ := hw.record fieldNames rfl (by decide)
    have hlat : f.required "lat" Value.toFloat? = some p.lat :=
      hprunes.required .float hp.1 (by simp)
    have hlong : f.required "long" Value.toFloat? = some p.long :=
      hprunes.required .float hp.2 (by simp)
    simp [ofJson?, hf, hlat, hlong]
  ne_null _ := Value.noConfusion
  sound {v p} hv hp := by
    simp only [ofJson?, Option.bind_eq_bind, Option.bind_eq_some_iff] at hp
    obtain ⟨f, hf, lat, hlat, long, hlong, heq⟩ := hp
    cases heq
    have hfields := Fields.isStated_of_ofValue? hv hf
    exact ⟨hfields.required .float hlat, hfields.required .float hlong⟩

end GeoPoint

namespace Endpoint

def IsFinite (e : Endpoint) : Prop :=
  (∀ x ∈ e.lat, FiniteFloat x) ∧ ∀ x ∈ e.long, FiniteFloat x

end Endpoint

namespace Connection

def IsFinite (row : Connection) : Prop := row.source.IsFinite ∧ row.peer.IsFinite

theorem ofFields?_of_prunes {row : Connection} (hrow : row.IsFinite) {fields f : Fields}
    (hfields : row.toFields ⊆ fields) (h : Fields.Prunes fields f) :
    ofFields? f = some row := by
  have hguid : f.orElse "guid" Value.toText? "" = some row.source.guid :=
    h.orElse .text trivial (hfields (by simp [toFields]))
  have hname : f.orElse "name" Value.toText? "" = some row.source.name :=
    h.orElse .text trivial (hfields (by simp [toFields]))
  have hpeerGuid : f.orElse "other_guid" Value.toText? "" = some row.peer.guid :=
    h.orElse .text trivial (hfields (by simp [toFields]))
  have hpeerName : f.orElse "other_name" Value.toText? "" = some row.peer.name :=
    h.orElse .text trivial (hfields (by simp [toFields]))
  have hrelay : f.optional "relay" Value.toText? = some row.source.relay :=
    h.optional .text (fun _ _ => trivial) (hfields (by simp [toFields]))
  have hpeerRelay : f.optional "other_relay" Value.toText? = some row.peer.relay :=
    h.optional .text (fun _ _ => trivial) (hfields (by simp [toFields]))
  have hlat : f.optional "lat" Value.toFloat? = some row.source.lat :=
    h.optional .float hrow.1.1 (hfields (by simp [toFields]))
  have hlong : f.optional "long" Value.toFloat? = some row.source.long :=
    h.optional .float hrow.1.2 (hfields (by simp [toFields]))
  have hpeerLat : f.optional "other_lat" Value.toFloat? = some row.peer.lat :=
    h.optional .float hrow.2.1 (hfields (by simp [toFields]))
  have hpeerLong : f.optional "other_long" Value.toFloat? = some row.peer.long :=
    h.optional .float hrow.2.2 (hfields (by simp [toFields]))
  simp [ofFields?, hguid, hname, hpeerGuid, hpeerName, hrelay, hpeerRelay, hlat, hlong,
    hpeerLat, hpeerLong]

theorem isFinite_of_ofFields? {f : Fields} {row : Connection} (hf : f.IsStated)
    (h : ofFields? f = some row) : row.IsFinite := by
  simp only [ofFields?, Option.bind_eq_bind, Option.bind_eq_some_iff] at h
  obtain ⟨guid, hguid, name, hname, peerGuid, hpeerGuid, peerName, hpeerName, relay, hrelay,
    peerRelay, hpeerRelay, lat, hlat, long, hlong, peerLat, hpeerLat, peerLong, hpeerLong,
    heq⟩ := h
  cases heq
  exact ⟨⟨hf.optional .float hlat, hf.optional .float hlong⟩,
    hf.optional .float hpeerLat, hf.optional .float hpeerLong⟩

end Connection

namespace Vote

def IsFinite (v : Vote) : Prop := (∀ x ∈ v.lat, FiniteFloat x) ∧ ∀ x ∈ v.long, FiniteFloat x

theorem faithful : Faithful IsFinite toJson ofJson? where
  reads {v} hv w hw := by
    obtain ⟨f, rfl, hf, h⟩ := hw.record fieldNames rfl (by decide)
    have hnode : f.orElse "sender_telemetry_id" Value.toText? "" = some v.node :=
      h.orElse .text trivial (by simp)
    have htimestamp : f.orElse "timestamp" Value.toUInt64? 0 = some v.timestamp :=
      h.orElse .word64 trivial (by simp)
    have hsender : f.orElse "sender" Value.toText? "" = some v.sender :=
      h.orElse .text trivial (by simp)
    have hround : f.orElse "round" Value.toUInt64? 0 = some v.round :=
      h.orElse .word64 trivial (by simp)
    have hperiod : f.orElse "period" Value.toUInt64? 0 = some v.period :=
      h.orElse .word64 trivial (by simp)
    have hstep : f.orElse "step" Value.toUInt64? 0 = some v.step :=
      h.orElse .word64 trivial (by simp)
    have hweight : f.orElse "weight" Value.toUInt64? 0 = some v.weight :=
      h.orElse .word64 trivial (by simp)
    have hlat : f.optional "lat" Value.toFloat? = some v.lat := h.optional .float hv.1 (by simp)
    have hlong : f.optional "long" Value.toFloat? = some v.long :=
      h.optional .float hv.2 (by simp)
    simp [ofJson?, hf, hnode, htimestamp, hsender, hround, hperiod, hstep, hweight, hlat, hlong]
  ne_null _ := Value.noConfusion
  sound hw hv := by
    simp only [ofJson?, Option.bind_eq_bind, Option.bind_eq_some_iff] at hv
    obtain ⟨f, hf, _, -, _, -, _, -, _, -, _, -, _, -, _, -, lat, hlat, long, hlong, heq⟩ := hv
    cases heq
    have hfields := Fields.isStated_of_ofValue? hw hf
    exact ⟨hfields.optional .float hlat, hfields.optional .float hlong⟩

end Vote

namespace DatedConnection

def toFields (c : DatedConnection) : Fields :=
  ("timestamp", .nat c.timestamp.toNat) :: c.row.toFields

theorem forall_isScalar (c : DatedConnection) :
    ∀ field ∈ c.toFields, field.2.isScalar = true := by
  have htimestamp : (Value.nat c.timestamp.toNat).isScalar = true := rfl
  have htext : ∀ o, (Value.ofOption .str o).isScalar = true :=
    Value.isScalar_ofOption Value.isScalar_str
  have hfloat : ∀ o, (Value.ofOption .ofFloat o).isScalar = true :=
    Value.isScalar_ofOption Value.isScalar_ofFloat
  simp [toFields, Connection.toFields, htimestamp, htext, hfloat]

theorem canKeep_of_prunes {c : DatedConnection} {f : Fields} (h : Fields.Prunes c.toFields f)
    {around : Nat} (haround : around ≤ Value.keptDepth) :
    (f.map fun (name, v) => ((some name : Option String), v)).all (canKeep around) = true := by
  refine List.all_eq_true.mpr fun member hmember => ?_
  obtain ⟨field, hfield, rfl⟩ := List.mem_map.mp hmember
  obtain ⟨v, hv, hpruned⟩ := h.thinned.exists_of_mem hfield
  have hscalar : v.isScalar = true := c.forall_isScalar (field.1, v) hv
  rw [← hpruned.eq_of_isScalar hscalar] at hscalar
  exact Bool.or_eq_true_iff.mpr (.inr (Value.canKeep_of_isScalar hscalar haround))

theorem faithful {around : Nat} (haround : around ≤ Value.keptDepth) :
    Faithful (fun c => c.row.IsFinite) toJson (ofJson? around) where
  reads {c} hc w hw := by
    replace hw : (Value.record c.toFields).Pruned w := hw
    obtain ⟨f, rfl, hf, h⟩ := hw.record fieldNames rfl (by decide)
    have hmembers : Fields.ofMembers? fieldNames (f.map fun (name, v) => (some name, v)) = some f :=
      hf false
    have htimestamp : f.orElse "timestamp" Value.toUInt64? 0 = some c.timestamp :=
      h.orElse .word64 trivial List.mem_cons_self
    have hrow : Connection.ofFields? f = some c.row :=
      Connection.ofFields?_of_prunes hc (List.subset_cons_self _ _) h
    simp [ofJson?, Value.record, canKeep_of_prunes h haround, hmembers, htimestamp, hrow]
  ne_null _ := Value.noConfusion
  sound hv hc := by
    cases hv with
    | obj members hmembers =>
        simp only [ofJson?, Option.bind_eq_bind, Option.bind_eq_some_iff] at hc
        obtain ⟨_, -, f, hf, timestamp, -, row, hrow, heq⟩ := hc
        cases heq
        have hfields : Fields.ofValue? fieldNames false (.obj members) = some f := hf
        exact Connection.isFinite_of_ofFields?
          (Fields.isStated_of_ofValue? (.obj members hmembers) hfields) hrow
    | _ => cases hc

theorem faithful_row : Faithful (fun c => c.row.IsFinite) toJson (ofJson? Telemetry.rowDepth) :=
  faithful (by decide)

end DatedConnection

namespace Sighting

theorem faithful : Faithful (fun _ => True) toJson ofJson? where
  reads {s} _ w hw := by
    obtain ⟨f, rfl, hf, h⟩ := hw.record fieldNames rfl (by decide)
    have hrelay : f.required "relay" Value.toText? = some s.relay :=
      h.required .text trivial (by simp)
    have hround : f.required "round" Value.toUInt64? = some s.round :=
      h.required .word64 trivial (by simp)
    have hauth : f.required "auth" Value.toText? = some s.auth :=
      h.required .text trivial (by simp)
    simp [ofJson?, hf, hrelay, hround, hauth]
  ne_null _ := Value.noConfusion
  sound _ _ := trivial

end Sighting

namespace RoundRow

theorem faithful : Faithful (fun _ => True) toJson ofJson? where
  reads {r} _ w hw := by
    obtain ⟨f, rfl, hf, h⟩ := hw.record fieldNames rfl (by decide)
    have hround : f.orElse "round" Value.toUInt64? 0 = some r.round :=
      h.orElse .word64 trivial (by simp)
    have hrelays : f.orElse "relay_count" Value.toCount? 0 = some r.relayCount :=
      h.orElse .count trivial (by simp)
    have hauths : f.orElse "auth_count" Value.toCount? 0 = some r.authCount :=
      h.orElse .count trivial (by simp)
    have hperiod : f.orElse "period" Value.toUInt64? 0 = some r.period :=
      h.orElse .word64 trivial (by simp)
    have hstep : f.orElse "step" Value.toUInt64? 0 = some r.step :=
      h.orElse .word64 trivial (by simp)
    simp [ofJson?, hf, hround, hrelays, hauths, hperiod, hstep]
  ne_null _ := Value.noConfusion
  sound _ _ := trivial

end RoundRow

namespace Telemetry

/-- No row has a coordinate without a number. -/
def IsFinite (t : Telemetry) : Prop :=
  (∀ v ∈ t.votes, v.IsFinite) ∧ (∀ c ∈ t.connections, c.row.IsFinite) ∧
    ∀ c ∈ t.relayConnections, c.row.IsFinite

theorem faithful : Faithful IsFinite toJson ofJson? where
  reads {t} ht w hw := by
    obtain ⟨hvotes', hconnections', hrelays'⟩ := ht
    obtain ⟨f, rfl, hf, h⟩ := hw.record fieldNames rfl (by decide)
    have hvotes : f.orElse "votes" (Value.toList? Vote.ofJson?) [] = some t.votes :=
      h.orElse Vote.faithful.list hvotes' (by simp)
    have hconnections : f.orElse "connections"
        (Value.toList? (DatedConnection.ofJson? rowDepth)) [] = some t.connections :=
      h.orElse DatedConnection.faithful_row.list hconnections' (by simp)
    have hrelays : f.orElse "relay_connections"
        (Value.toList? (DatedConnection.ofJson? rowDepth)) [] = some t.relayConnections :=
      h.orElse DatedConnection.faithful_row.list hrelays' (by simp)
    have hsightings : f.orElse "authenticators" (Value.toList? Sighting.ofJson?) [] =
        some t.sightings :=
      h.orElse Sighting.faithful.list (fun _ _ => trivial) (by simp)
    have hrounds : f.orElse "rounds" (Value.toList? RoundRow.ofJson?) [] = some t.rounds :=
      h.orElse RoundRow.faithful.list (fun _ _ => trivial) (by simp)
    simp [ofJson?, hf, hvotes, hconnections, hrelays, hsightings, hrounds]
  ne_null _ := Value.noConfusion
  sound hv ht := by
    simp only [ofJson?, Option.bind_eq_bind, Option.bind_eq_some_iff] at ht
    obtain ⟨f, hf, votes, hvotes, connections, hconnections, relays, hrelays, _, -, _, -, heq⟩ := ht
    cases heq
    have hfields := Fields.isStated_of_ofValue? hv hf
    have hvotes' := hfields.orElse Vote.faithful.list (List.forall_mem_nil _) hvotes
    have hconnections' :=
      hfields.orElse DatedConnection.faithful_row.list (List.forall_mem_nil _) hconnections
    have hrelays' :=
      hfields.orElse DatedConnection.faithful_row.list (List.forall_mem_nil _) hrelays
    exact ⟨hvotes', hconnections', hrelays'⟩

end Telemetry
end VoteTrace
