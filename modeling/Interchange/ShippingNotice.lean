import Interchange.Json
import Interchange.Shape

/-!
The records of an advance shipping notice: its header and its lines.
-/

namespace Interchange.ShippingNotice

open Decimal (Binary64)

/-- The document type of shipping notices. -/
def documentType : String := "ASN"

/-- The table of the rules for headers. -/
def headerTable : String := "ASN_HEADERS"

/-- The table of the rules for lines. -/
def lineTable : String := "ASN_LINES"

structure Header where
  asnNumber : Option String
  asnType : Option String
  asnLevel : Int
  asnStatus : Option String
  businessPartner : Option String
  vendorName : Option String
  originFacility : Option String
  destinationFacility : Option String
  shipDate : Option String
  deliveryDate : Option String
  receiptDate : String
  billOfLading : Option String
  trackingNumber : Option String
  totalWeight : Option Binary64
  totalVolume : Option Binary64
  hasImportError : Bool
  hasSoftCheckError : Bool
  hasAlerts : Bool
  isCogiGenerated : Bool
  isCancelled : Bool
  isClosed : Bool
  isGift : Bool
  isWarehouseTransfer : String
  qualityAuditPercent : Binary64
  asnPriority : Int
  scheduleAppointment : Int
  createdSourceType : Int
  lastUpdatedSourceType : Int
  deriving DecidableEq, Repr

/-- A new header; it is received today. -/
def Header.new (today : String) : Header where
  asnNumber := none
  asnType := none
  asnLevel := 1
  asnStatus := none
  businessPartner := none
  vendorName := none
  originFacility := none
  destinationFacility := none
  shipDate := none
  deliveryDate := none
  receiptDate := today
  billOfLading := none
  trackingNumber := none
  totalWeight := none
  totalVolume := none
  hasImportError := false
  hasSoftCheckError := false
  hasAlerts := false
  isCogiGenerated := false
  isCancelled := false
  isClosed := false
  isGift := false
  isWarehouseTransfer := "0"
  qualityAuditPercent := .zero false
  asnPriority := 0
  scheduleAppointment := 0
  createdSourceType := 0
  lastUpdatedSourceType := 0

def Header.fields : FieldTable Header :=
  let t : FieldTable Header := .empty
  let t := t.text "asn_number" fun r v => { r with asnNumber := some v }
  let t := t.text "asn_type" fun r v => { r with asnType := some v }
  let t := t.int32 "asn_level" fun r v => { r with asnLevel := v }
  let t := t.text "asn_status" fun r v => { r with asnStatus := some v }
  let t := t.text "business_partner" fun r v => { r with businessPartner := some v }
  let t := t.text "vendor_name" fun r v => { r with vendorName := some v }
  let t := t.text "origin_facility" fun r v => { r with originFacility := some v }
  let t := t.text "destination_facility" fun r v => { r with destinationFacility := some v }
  let t := t.text "ship_date" fun r v => { r with shipDate := some v }
  let t := t.text "delivery_date" fun r v => { r with deliveryDate := some v }
  let t := t.text "receipt_dttm" fun r v => { r with receiptDate := v }
  let t := t.text "bill_of_lading" fun r v => { r with billOfLading := some v }
  let t := t.text "tracking_number" fun r v => { r with trackingNumber := some v }
  let t := t.float64 "total_weight" fun r v => { r with totalWeight := some v }
  let t := t.float64 "total_volume" fun r v => { r with totalVolume := some v }
  let t := t.boolean "has_import_error" fun r v => { r with hasImportError := v }
  let t := t.boolean "has_soft_check_error" fun r v => { r with hasSoftCheckError := v }
  let t := t.boolean "has_alerts" fun r v => { r with hasAlerts := v }
  let t := t.boolean "is_cogi_generated" fun r v => { r with isCogiGenerated := v }
  let t := t.boolean "is_cancelled" fun r v => { r with isCancelled := v }
  let t := t.boolean "is_closed" fun r v => { r with isClosed := v }
  let t := t.boolean "is_gift" fun r v => { r with isGift := v }
  let t := t.text "is_whse_transfer" fun r v => { r with isWarehouseTransfer := v }
  let t := t.float64 "quality_audit_percent" fun r v => { r with qualityAuditPercent := v }
  let t := t.int32 "asn_priority" fun r v => { r with asnPriority := v }
  let t := t.int32 "schedule_appt" fun r v => { r with scheduleAppointment := v }
  let t := t.int32 "created_source_type" fun r v => { r with createdSourceType := v }
  t.int32 "last_updated_source_type" fun r v => { r with lastUpdatedSourceType := v }

/-- A header with the names of its fields. -/
def Header.report (r : Header) : JsonValue :=
  .object [
    ("asn_number", .optional .text r.asnNumber),
    ("asn_type", .optional .text r.asnType),
    ("asn_level", .integer r.asnLevel),
    ("asn_status", .optional .text r.asnStatus),
    ("business_partner", .optional .text r.businessPartner),
    ("vendor_name", .optional .text r.vendorName),
    ("origin_facility", .optional .text r.originFacility),
    ("destination_facility", .optional .text r.destinationFacility),
    ("ship_date", .optional .text r.shipDate),
    ("delivery_date", .optional .text r.deliveryDate),
    ("receipt_dttm", .text r.receiptDate),
    ("bill_of_lading", .optional .text r.billOfLading),
    ("tracking_number", .optional .text r.trackingNumber),
    ("total_weight", .optional .decimal r.totalWeight),
    ("total_volume", .optional .decimal r.totalVolume),
    ("has_import_error", .bool r.hasImportError),
    ("has_soft_check_error", .bool r.hasSoftCheckError),
    ("has_alerts", .bool r.hasAlerts),
    ("is_cogi_generated", .bool r.isCogiGenerated),
    ("is_cancelled", .bool r.isCancelled),
    ("is_closed", .bool r.isClosed),
    ("is_gift", .bool r.isGift),
    ("is_whse_transfer", .text r.isWarehouseTransfer),
    ("quality_audit_percent", .decimal r.qualityAuditPercent),
    ("asn_priority", .integer r.asnPriority),
    ("schedule_appt", .integer r.scheduleAppointment),
    ("created_source_type", .integer r.createdSourceType),
    ("last_updated_source_type", .integer r.lastUpdatedSourceType)]

/-- Headers of notices received today. -/
def headerShape (today : String) : Shape Header := ⟨.new today, Header.fields⟩

structure Line where
  lineNumber : Option Int
  itemName : Option String
  itemDescription : Option String
  purchaseOrder : Option String
  lotNumber : Option String
  batchNumber : Option String
  quantity : Option Binary64
  unitOfMeasure : Option String
  unitPrice : Option Binary64
  expiryDate : Option String
  status : String
  isCancelled : Bool
  deriving DecidableEq, Repr

def Line.new : Line where
  lineNumber := none
  itemName := none
  itemDescription := none
  purchaseOrder := none
  lotNumber := none
  batchNumber := none
  quantity := none
  unitOfMeasure := none
  unitPrice := none
  expiryDate := none
  status := "NEW"
  isCancelled := false

def Line.fields : FieldTable Line :=
  let t : FieldTable Line := .empty
  let t := t.int32 "line_number" fun r v => { r with lineNumber := some v }
  let t := t.text "item_name" fun r v => { r with itemName := some v }
  let t := t.text "item_description" fun r v => { r with itemDescription := some v }
  let t := t.text "purchase_order" fun r v => { r with purchaseOrder := some v }
  let t := t.text "lot_number" fun r v => { r with lotNumber := some v }
  let t := t.text "batch_number" fun r v => { r with batchNumber := some v }
  let t := t.float64 "quantity" fun r v => { r with quantity := some v }
  let t := t.text "unit_of_measure" fun r v => { r with unitOfMeasure := some v }
  let t := t.float64 "unit_price" fun r v => { r with unitPrice := some v }
  let t := t.text "expiry_date" fun r v => { r with expiryDate := some v }
  let t := t.text "status" fun r v => { r with status := v }
  t.boolean "is_cancelled" fun r v => { r with isCancelled := v }

/-- A line with the names of its fields. -/
def Line.report (r : Line) : JsonValue :=
  .object [
    ("line_number", .optional .integer r.lineNumber),
    ("item_name", .optional .text r.itemName),
    ("item_description", .optional .text r.itemDescription),
    ("purchase_order", .optional .text r.purchaseOrder),
    ("lot_number", .optional .text r.lotNumber),
    ("batch_number", .optional .text r.batchNumber),
    ("quantity", .optional .decimal r.quantity),
    ("unit_of_measure", .optional .text r.unitOfMeasure),
    ("unit_price", .optional .decimal r.unitPrice),
    ("expiry_date", .optional .text r.expiryDate),
    ("status", .text r.status),
    ("is_cancelled", .bool r.isCancelled)]

def lineShape : Shape Line := ⟨.new, Line.fields⟩

end Interchange.ShippingNotice
