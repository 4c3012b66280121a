import Interchange.Engine.Strategy
import Interchange.ShippingNotice

/-!
The strategy for advance shipping notices.
-/

namespace Interchange.Engine

/-- Notices are bound by the rules of their own two tables. -/
def noticeSettings : Settings := .ofTables ShippingNotice.headerTable ShippingNotice.lineTable

/-- The strategy for notices that are received today. -/
def noticeStrategy (today : String) (rules : RuleSource) :
    Strategy ShippingNotice.Header ShippingNotice.Line where
  documentType := ShippingNotice.documentType
  rules := rules
  transforms := .standard
  header := ShippingNotice.headerShape today
  line := ShippingNotice.lineShape
  settings := noticeSettings

end Interchange.Engine
