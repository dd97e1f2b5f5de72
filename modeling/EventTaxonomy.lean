import EventTaxonomy.Main
import EventTaxonomy.Proofs.Satisfaction
import EventTaxonomy.Proofs.Locality
import EventTaxonomy.Proofs.RecordLimit
import EventTaxonomy.Proofs.Canonical
import EventTaxonomy.Proofs.ShapeReading
import EventTaxonomy.Proofs.EventDecoding
import EventTaxonomy.Proofs.EventRoundTrip
import EventTaxonomy.Proofs.DocumentReading
import EventTaxonomy.Proofs.FieldValues
import EventTaxonomy.Proofs.DocumentSchema
import EventTaxonomy.Proofs.DocumentRoundTrip
import EventTaxonomy.Proofs.ValidateRun
import EventTaxonomy.Proofs.IdentityData
import EventTaxonomy.Proofs.RecordingLog
import EventTaxonomy.Proofs.RecordForms
import EventTaxonomy.Proofs.RulePositions
import EventTaxonomy.Proofs.JsonLines
import EventTaxonomy.Proofs.Findings
import EventTaxonomy.Proofs.RuleSetRuns
import EventTaxonomy.Proofs.EventShape
import EventTaxonomy.Proofs.Building
import EventTaxonomy.Proofs.ContextChanges
import EventTaxonomy.Proofs.RuleLoading
import EventTaxonomy.Proofs.BuilderCalls
import EventTaxonomy.Proofs.OpenTaxonomy
import EventTaxonomy.Proofs.RuleListing
import EventTaxonomy.Proofs.RuleTable
import EventTaxonomy.Proofs.ArrayDocuments
import EventTaxonomy.Proofs.NameLanguages
import EventTaxonomy.Proofs.TwoLines
import EventTaxonomy.Proofs.TextFaults
