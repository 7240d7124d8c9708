import SlotQuery.Compile.Statement
import SlotQuery.Wire.Text
import SlotQuery.Proofs.Acceptance
import SlotQuery.Proofs.Containment
import SlotQuery.Proofs.Meaning
import SlotQuery.Proofs.Placeholders
import SlotQuery.Proofs.Parameters
import SlotQuery.Proofs.Outline
import SlotQuery.Proofs.Construction
import SlotQuery.Proofs.Isolation
import SlotQuery.Proofs.Precedence
import SlotQuery.Proofs.Grouping
import SlotQuery.Proofs.Sorting
import SlotQuery.Proofs.Formula
import SlotQuery.Proofs.Brackets
import SlotQuery.Proofs.SingleRows
import SlotQuery.Proofs.Answers
import SlotQuery.Proofs.OuterRows
import SlotQuery.Proofs.Windows
import SlotQuery.Proofs.Paging
import SlotQuery.Proofs.Faults
import SlotQuery.Proofs.Respelling
import SlotQuery.Proofs.FirstFault
import SlotQuery.Proofs.NegationNormal
import SlotQuery.Proofs.Regrouping
import SlotQuery.Proofs.Assignability
import SlotQuery.Proofs.ParameterRuns
import SlotQuery.Proofs.Absence
import SlotQuery.Proofs.PathPlaces
import SlotQuery.Proofs.SetOperations
import SlotQuery.Proofs.Lexemes
import SlotQuery.Proofs.PositionPatterns
import SlotQuery.Proofs.SharedJoins
import SlotQuery.Proofs.NameTexts
