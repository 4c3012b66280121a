import Interchange.Engine.Notices
import Interchange.Proofs.Registration

/-!
# Clients do not see the rules of others

Processing asks for the rules of the client of the interface alone, and a registry answers from the rules of
that client alone. So the rules of other clients, and how they were registered between those of a client,
make no difference to it (`Engine.Strategy.process_isolated`).
-/

namespace Interchange

namespace RuleRegistry

variable {rules more : List Rule} {client : String}

/-- What is active for a client comes from the rules of the client. -/
theorem active_ofRules_congr (hsame : rules.filter (·.client == client) = more.filter (·.client == client))
    (table : String) : (ofRules rules).active client table = (ofRules more).active client table := by
  rw [active_eq_held, active_eq_held, held_ofRules, held_ofRules, filter_isFor, filter_isFor, hsame]

end RuleRegistry

namespace Engine.Strategy

variable {σ H L : Type}

/-- The strategy with the rules of a registry. -/
def withRules (st : Strategy H L) (g : RuleRegistry) : Strategy H L := { st with rules := g.active }

variable {st : Strategy H L} {g h : RuleRegistry} {storage : Storage σ H L} {client : String}

/-- A run asks for the rules of its client alone. -/
theorem run_congr (hrules : ∀ table, g.active client table = h.active client table)
    (octets : Text.Utf8.Octets) (a : Attempt) (s : σ) :
    (st.withRules g).run storage client octets a s = (st.withRules h).run storage client octets a s := by
  simp only [run, runLines, withRules, hrules]
  rfl

theorem process_congr {i : Interface} (hrules : ∀ table, g.active i.client table = h.active i.client table)
    (doc : Inbound) (s : σ) :
    (st.withRules g).process storage doc i s = (st.withRules h).process storage doc i s := by
  simp only [process, run_congr hrules]
  rfl

/-- Two registries, filled in whatever ways, to which the same rules of a client were registered in the same
order: for interfaces of that client, processing by either answers the same and leaves the same behind,
whatever the document and the state of the storage. -/
theorem process_isolated {fillings others : List RuleRegistry.Filling} {client : String}
    (hsame : (RuleRegistry.registered fillings).filter (·.client == client) =
      (RuleRegistry.registered others).filter (·.client == client))
    (st : Strategy H L) (storage : Storage σ H L) (doc : Inbound) (i : Interface)
    (hclient : i.client = client) (s : σ) :
    (st.withRules (.filled fillings)).process storage doc i s =
      (st.withRules (.filled others)).process storage doc i s := by
  subst hclient
  refine process_congr (fun table => ?_) doc s
  rw [RuleRegistry.filled_eq, RuleRegistry.filled_eq]
  exact RuleRegistry.active_ofRules_congr hsame table

theorem process_isolated_notice :
    let number := { Rule.new "ASN_HEADERS" "/ASN/Number" "asn_number" with client := "ACME" }
    let level := { Rule.new "asn_headers" "/ASN/Level" "asn_level" with client := "ACME", priority := 1 }
    let foreign := { Rule.new "ASN_HEADERS" "/ASN/Level" "asn_number" with client := "GLOBEX" }
    let fillings : List RuleRegistry.Filling := [.register foreign,
      .load ⟨fun _ => .error .missing, fun _ => false⟩ [], .extend [level, foreign], .register number]
    let others : List RuleRegistry.Filling := [.register level, .register number]
    let st := noticeStrategy "2024-05-01" fun _ _ => []
    let doc : Inbound := ⟨"a.xml", Text.Utf8.encode "<ASN><Number>7</Number></ASN>".toList⟩
    let i := Interface.new "7" "ACME" "Notices" "ASN"
    (RuleRegistry.registered fillings).filter (·.client == "ACME") =
        (RuleRegistry.registered others).filter (·.client == "ACME") ∧
      i.client = "ACME" ∧ RuleRegistry.filled fillings ≠ .filled others ∧
      (st.withRules (.filled fillings)).process Store.storage doc i .empty =
        (st.withRules (.filled others)).process Store.storage doc i .empty := by
  intro number level foreign fillings others st doc i
  have hsame : (RuleRegistry.registered fillings).filter (·.client == "ACME") =
      (RuleRegistry.registered others).filter (·.client == "ACME") := by
    decide
  have hdiffer : RuleRegistry.filled fillings ≠ .filled others := by decide +kernel
  exact ⟨hsame, rfl, hdiffer, process_isolated hsame st Store.storage doc i rfl .empty⟩

end Engine.Strategy

end Interchange
