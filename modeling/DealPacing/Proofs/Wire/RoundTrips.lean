import DealPacing.Proofs.Wire.Codecs
import DealPacing.Wire.LineItemRecord
import DealPacing.Wire.Report

/-!
# The wire formats round-trip

Bid requests, planner records and reports are restored when they are written and read again,
whatever shape they had when they were first read: records as objects or arrays, members absent,
`null` or unknown, time stamps with any offset and fraction. The proof for a record goes through its
fields in their declared order, as its reader does; a field whose name or kind differs between
reader and writer would leave a member whose value is not known in the last step.

## Main results

* `BidRequest.restores`, `LineItemRecord.restores`, `ReportBatch.restores`, ...: every record is
  restored
* `Wire.formats_roundTrip`: the wire formats round-trip
-/

namespace DealPacing

open Wire

/-! ## Bid requests -/

theorem Size.restores : Restores Size.decode Size.encode := by
  apply restores_record
  -- here and below, one step for each field; that its member is found is left to the last step
  refine .required restores_int64 fun w => ?_
  refine .required restores_int64 fun h => ?_
  exact .done (by simp)

theorem Banner.restores : Restores Banner.decode Banner.encode := by
  apply restores_record
  refine .defaulted (restores_list Size.restores) rfl fun format => ?_
  refine .optional restores_int64 fun pos => ?_
  exact .done (by simp)

theorem Impression.restores : Restores Impression.decode Impression.encode := by
  apply restores_record
  refine .required restores_text fun id => ?_
  refine .optional Banner.restores fun banner => ?_
  refine .raw fun video => ?_
  refine .raw fun native => ?_
  refine .raw fun ext => ?_
  exact .done (by simp)

theorem Publisher.restores : Restores Publisher.decode Publisher.encode := by
  apply restores_record
  refine .optional restores_text fun id => ?_
  refine .optional restores_text fun domain => ?_
  exact .done (by simp)

theorem Site.restores : Restores Site.decode Site.encode := by
  apply restores_record
  refine .optional restores_text fun domain => ?_
  refine .optional restores_text fun page => ?_
  refine .optional Publisher.restores fun publisher => ?_
  refine .raw fun ext => ?_
  exact .done (by simp)

theorem App.restores : Restores App.decode App.encode := by
  apply restores_record
  refine .optional restores_text fun bundle => ?_
  refine .raw fun ext => ?_
  exact .done (by simp)

theorem Geo.restores : Restores Geo.decode Geo.encode := by
  apply restores_record
  refine .optional restores_float fun lat => ?_
  refine .optional restores_float fun lon => ?_
  refine .raw fun ext => ?_
  exact .done (by simp)

theorem Device.restores : Restores Device.decode Device.encode := by
  apply restores_record
  refine .optional Geo.restores fun geo => ?_
  refine .raw fun ext => ?_
  exact .done (by simp)

theorem Segment.restores : Restores Segment.decode Segment.encode := by
  apply restores_record
  refine .optional restores_text fun id => ?_
  exact .done (by simp)

theorem Audience.restores : Restores Audience.decode Audience.encode := by
  apply restores_record
  refine .optional restores_text fun id => ?_
  refine .defaulted (restores_list Segment.restores) rfl fun segment => ?_
  exact .done (by simp)

theorem UserTime.restores : Restores UserTime.decode UserTime.encode := by
  apply restores_record
  refine .optional restores_int64 fun userdow => ?_
  refine .optional restores_int64 fun userhour => ?_
  exact .done (by simp)

theorem UserExt.restores : Restores UserExt.decode UserExt.encode := by
  apply restores_record
  refine .optional UserTime.restores fun time => ?_
  refine .raw fun data => ?_
  exact .done (by simp)

theorem User.restores : Restores User.decode User.encode := by
  apply restores_record
  refine .optional restores_text fun id => ?_
  refine .optional restores_text fun buyeruid => ?_
  refine .optional restores_int64 fun yob => ?_
  refine .optional restores_text fun gender => ?_
  refine .optional restores_text fun keywords => ?_
  refine .optional restores_text fun customdata => ?_
  refine .defaulted (restores_list Audience.restores) rfl fun data => ?_
  refine .optional UserExt.restores fun ext => ?_
  exact .done (by simp)

theorem BidRequest.restores : Restores BidRequest.decode BidRequest.encode := by
  apply restores_record
  refine .required restores_text fun id => ?_
  refine .defaulted (restores_list Impression.restores) rfl fun imp => ?_
  refine .optional Site.restores fun site => ?_
  refine .optional App.restores fun app => ?_
  refine .optional Device.restores fun device => ?_
  refine .optional User.restores fun user => ?_
  refine .raw fun ext => ?_
  exact .done (by simp)

/-! ## Line item records -/

theorem Allotment.restores : Restores Allotment.decode Allotment.encode := by
  apply restores_record
  refine .required restores_int32 fun priorityClass => ?_
  refine .required restores_word64 fun total => ?_
  exact .done (by simp)

theorem Schedule.restores : Restores Schedule.decode Schedule.encode := by
  apply restores_record
  refine .required restores_text fun planId => ?_
  refine .required restores_instant fun start => ?_
  refine .required restores_instant fun finish => ?_
  refine .required restores_instant fun updated => ?_
  refine .defaulted (restores_list Allotment.restores) rfl fun tokens => ?_
  exact .done (by simp)

theorem Price.restores : Restores Price.decode Price.encode := by
  apply restores_record
  refine .required restores_float fun cpm => ?_
  refine .required restores_text fun currency => ?_
  exact .done (by simp)

theorem FrequencyCap.restores : Restores FrequencyCap.decode FrequencyCap.encode := by
  apply restores_record
  refine .required restores_text fun fcapId => ?_
  refine .defaulted restores_word64 rfl fun count => ?_
  refine .defaulted restores_word64 rfl fun periods => ?_
  refine .defaulted restores_text rfl fun periodType => ?_
  exact .done (by simp)

theorem LineItemRecord.restores : Restores LineItemRecord.decode LineItemRecord.encode := by
  apply restores_record
  refine .required restores_text fun lineItemId => ?_
  refine .optional restores_text fun extLineItemId => ?_
  refine .optional restores_text fun dealId => ?_
  refine .defaulted (restores_list Size.restores) rfl fun sizes => ?_
  refine .defaulted restores_text rfl fun accountId => ?_
  refine .defaulted restores_text rfl fun source => ?_
  refine .optional Price.restores fun price => ?_
  refine .optional restores_int32 fun relativePriority => ?_
  refine .required restores_instant fun start => ?_
  refine .required restores_instant fun finish => ?_
  refine .optional restores_instant fun updated => ?_
  refine .defaulted restores_text rfl fun status => ?_
  refine .defaulted (restores_list FrequencyCap.restores) rfl fun frequencyCaps => ?_
  refine .defaulted (restores_list Schedule.restores) rfl fun schedules => ?_
  refine .raw fun targeting => ?_
  exact .done (by simp)

/-! ## Delivery reports -/

theorem TokenReport.restores : Restores TokenReport.decode TokenReport.encode := by
  apply restores_record
  refine .required restores_int32 fun priorityClass => ?_
  refine .required restores_word64 fun total => ?_
  refine .required restores_word64 fun spent => ?_
  refine .optional restores_word64 fun totalSpent => ?_
  exact .done (by simp)

theorem ScheduleReport.restores : Restores ScheduleReport.decode ScheduleReport.encode := by
  apply restores_record
  refine .required restores_text fun planId => ?_
  refine .required restores_text fun planStart => ?_
  refine .required restores_text fun planExpiration => ?_
  refine .required restores_text fun planUpdated => ?_
  refine .required (restores_list TokenReport.restores) fun tokens => ?_
  exact .done (by simp)

theorem EventReport.restores : Restores EventReport.decode EventReport.encode := by
  apply restores_record
  refine .required restores_text fun eventType => ?_
  refine .required restores_word64 fun count => ?_
  exact .done (by simp)

theorem LostToReport.restores : Restores LostToReport.decode LostToReport.encode := by
  apply restores_record
  refine .optional restores_text fun lineItemSource => ?_
  refine .required restores_text fun lineItemId => ?_
  refine .required restores_word64 fun count => ?_
  exact .done (by simp)

theorem LineItemReport.restores : Restores LineItemReport.decode LineItemReport.encode := by
  apply restores_record
  refine .required restores_text fun lineItemId => ?_
  refine .optional restores_text fun lineItemSource => ?_
  refine .optional restores_text fun dealId => ?_
  refine .optional restores_text fun extLineItemId => ?_
  refine .optional restores_word64 fun accountAuctions => ?_
  refine .required restores_word64 fun domainMatched => ?_
  refine .required restores_word64 fun targetMatched => ?_
  refine .required restores_word64 fun targetMatchedButFcapped => ?_
  refine .required restores_word64 fun targetMatchedButFcapLookupFailed => ?_
  refine .required restores_word64 fun pacingDeferred => ?_
  refine .required restores_word64 fun sentToBidder => ?_
  refine .required restores_word64 fun sentToBidderAsTopMatch => ?_
  refine .required restores_word64 fun receivedFromBidder => ?_
  refine .required restores_word64 fun receivedFromBidderInvalidated => ?_
  refine .required restores_word64 fun sentToClient => ?_
  refine .required restores_word64 fun sentToClientAsTopMatch => ?_
  refine .defaulted (restores_list LostToReport.restores) rfl fun lostToLineItems => ?_
  refine .defaulted (restores_list EventReport.restores) rfl fun events => ?_
  refine .defaulted (restores_list ScheduleReport.restores) rfl fun deliverySchedule => ?_
  refine .optional restores_text fun readyAt => ?_
  refine .optional restores_word64 fun spentTokens => ?_
  refine .optional restores_int64 fun pacingFrequency => ?_
  exact .done (by simp)

theorem ProgressReport.restores : Restores ProgressReport.decode ProgressReport.encode := by
  apply restores_record
  refine .required restores_text fun reportId => ?_
  refine .optional restores_text fun instanceId => ?_
  refine .optional restores_text fun region => ?_
  refine .optional restores_text fun vendor => ?_
  refine .optional restores_text fun reportTimeStamp => ?_
  refine .optional restores_text fun windowStart => ?_
  refine .optional restores_text fun windowEnd => ?_
  refine .required restores_word64 fun clientAuctions => ?_
  refine .defaulted (restores_list LineItemReport.restores) rfl fun lineItemStatus => ?_
  exact .done (by simp)

theorem ReportBatch.restores : Restores ReportBatch.decode ReportBatch.encode := by
  apply restores_record
  refine .required restores_text fun reportId => ?_
  refine .optional restores_text fun windowEnd => ?_
  refine .required (restores_list ProgressReport.restores) fun reports => ?_
  exact .done (by simp)

theorem LineItemSnapshot.restores : Restores LineItemSnapshot.decode LineItemSnapshot.encode := by
  apply restores_record
  refine .required restores_text fun lineItemId => ?_
  refine .optional restores_text fun accountId => ?_
  refine .optional ScheduleReport.restores fun deliverySchedule => ?_
  refine .optional restores_instant fun readyToServe => ?_
  refine .optional restores_word64 fun spentTokens => ?_
  refine .optional restores_int64 fun pacingFrequency => ?_
  refine .raw fun target => ?_
  exact .done (by simp)

/-! ## The wire formats -/

/-- **The wire formats round-trip**: bid requests, line item records and the schedules in them,
batches of reports, and snapshots. -/
theorem Wire.formats_roundTrip :
    RoundTrips BidRequest.decode BidRequest.encode ∧
      RoundTrips LineItemRecord.decode LineItemRecord.encode ∧
      RoundTrips Schedule.decode Schedule.encode ∧
      RoundTrips ReportBatch.decode ReportBatch.encode ∧
      RoundTrips LineItemSnapshot.decode LineItemSnapshot.encode :=
  ⟨BidRequest.restores.roundTrips, LineItemRecord.restores.roundTrips,
    Schedule.restores.roundTrips, ReportBatch.restores.roundTrips,
    LineItemSnapshot.restores.roundTrips⟩

/-- A request from an array, a record with members missing, `null` and unknown, a schedule in a
leap second and away from UTC, reports nested in arrays, and a snapshot. -/
theorem Wire.formats_roundTrip_shapes :
    (∃ x, BidRequest.decode (.arr [.str "auction", .arr [.arr [.str "slot"]], .null, .null,
        .obj [("geo", .arr [.float 52.5])]]) = some x ∧ BidRequest.decode x.encode = some x) ∧
      (∃ x, LineItemRecord.decode (.obj [("lineItemId", .str "line"), ("dealId", .null),
          ("colour", .str "red"), ("price", .arr [.float 1.5, .str "EUR"]),
          ("startTimeStamp", .str "2016-12-31T23:59:60.25Z"),
          ("endTimeStamp", .str "2017-01-01 01:30:00+02:00")]) = some x ∧
        LineItemRecord.decode x.encode = some x) ∧
      (∃ x, Schedule.decode (.arr [.str "plan", .str "2016-12-31t23:59:60.25Z",
          .str "2017-01-01 01:30:00+02:00", .str "+2017-1-1T 0:00:00.000000001 UTC"]) = some x ∧
        Schedule.decode x.encode = some x) ∧
      (∃ x, ReportBatch.decode (.obj [("reportId", .str "report"), ("reports", .arr
          [.arr [.str "part", .null, .null, .null, .null, .null, .null, .nat 7]])]) = some x ∧
        ReportBatch.decode x.encode = some x) ∧
      (∃ x, LineItemSnapshot.decode (.obj [("lineItemId", .str "line"),
          ("readyToServeTimestamp", .str "2017-01-01T00:30:00.001+01:00"),
          ("target", .obj [("sizes", .null)])]) = some x ∧
        LineItemSnapshot.decode x.encode = some x) := by
  have hread {α : Type} {decode : Decoder α} {encode : α → Json} {v : Json}
      (h : RoundTrips decode encode) (hv : (decode v).isSome = true) :
      ∃ x, decode v = some x ∧ decode (encode x) = some x := by
    obtain ⟨x, hx⟩ := Option.isSome_iff_exists.mp hv
    exact ⟨x, hx, h.decode_encode hx⟩
  obtain ⟨hrequest, hrecord, hschedule, hbatch, hsnapshot⟩ := formats_roundTrip
  exact ⟨hread hrequest (by decide +kernel), hread hrecord (by decide +kernel),
    hread hschedule (by decide +kernel), hread hbatch (by decide +kernel),
    hread hsnapshot (by decide +kernel)⟩

end DealPacing
