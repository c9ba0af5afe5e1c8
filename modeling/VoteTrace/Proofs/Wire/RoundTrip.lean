import VoteTrace.Proofs.Wire.Drawings

/-!
Documents that are written and read again.

Main statement: telemetry, spreads and drawings whose floats are finite are decoded from their own
encoding, whichever of its null members are left out. What a text states has only finite floats,
so that to decode and encode it once gives a form that doing so again does not change.
-/

namespace VoteTrace

open Json

/-- Decoding undoes encoding, and one pass over a text leads to a form that stays. -/
structure RoundTrips {α : Type} (P : α → Prop) (encode : α → Value) (decode : Value → Option α) :
    Prop where
  decode_encode : ∀ a, P a → ∀ w, (encode a).Pruned w → decode w = some a
  normal_form : ∀ text a, (read? text).bind decode = some a →
    P a ∧ (decode (encode a)).map encode = some (encode a)

theorem Json.Faithful.roundTrips {α : Type} {P : α → Prop} {encode : α → Value}
    {decode : Value → Option α} (h : Faithful P encode decode) : RoundTrips P encode decode where
  decode_encode _ ha _ hw := h.reads ha hw
  normal_form text a ha := by
    obtain ⟨v, hread, hdecode⟩ := Option.bind_eq_some_iff.mp ha
    have hfinite : P a := h.sound (isStated_of_read? hread) hdecode
    rw [h.reads hfinite (.refl (encode a))]
    exact ⟨hfinite, rfl⟩

/-- Documents come back as they were written. -/
theorem documents_round_trip :
    RoundTrips Telemetry.IsFinite Telemetry.toJson Telemetry.ofJson? ∧
      RoundTrips Spread.IsFinite Spread.toJson Spread.ofJson? ∧
      RoundTrips Drawing.IsFinite Drawing.toJson Drawing.ofJson? :=
  ⟨Telemetry.faithful.roundTrips, Spread.faithful.roundTrips, Drawing.faithful.roundTrips⟩

/-- A map without a center. -/
def sketch : Drawing := .geo ⟨none, [⟨⟨2.5, -0.5⟩, 1, "a"⟩], []⟩

/-- A vote of which only the latitude is told, as a whole number. -/
def postcard : Telemetry :=
  { Telemetry.empty with votes := [⟨"", 0, "", 0, 0, 0, 0, some 7, none⟩] }

theorem documents_round_trip_sketch :
    Drawing.ofJson? (.record
        [("style", .str "geo"),
         ("data", .record
            [("markers", .ofList Marker.toJson [⟨⟨2.5, -0.5⟩, 1, "a"⟩]),
             ("segments", .arr [])])]) = some sketch ∧
      (read? "\x7b\"votes\":[\x7b\"lat\":7\x7d]\x7d").bind Telemetry.ofJson? = some postcard ∧
      (Telemetry.ofJson? postcard.toJson).map Telemetry.toJson = some postcard.toJson := by
  obtain ⟨htelemetry, -, hdrawing⟩ := documents_round_trip
  have hsketch : sketch.IsFinite := by
    refine ⟨fun p hp => (nomatch hp), ?_, List.forall_mem_nil _⟩
    exact List.forall_mem_singleton.mpr ⟨by decide, by decide⟩
  have hread : (read? "\x7b\"votes\":[\x7b\"lat\":7\x7d]\x7d").bind Telemetry.ofJson? =
      some postcard := by
    decide +kernel
  refine ⟨?_, hread, (htelemetry.normal_form _ postcard hread).2⟩
  exact hdrawing.decode_encode sketch hsketch _
    (.obj (.keep (.refl _) (.keep (.obj (.drop (Thinned.refl _))) .nil)))

end VoteTrace
