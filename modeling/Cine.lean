import Cine.Grading.AiProvider.TierCooldown
import Cine.Grading.OneShot.WithinRubric
import Cine.Grading.GradeExport.Digest
import Cine.Grading.Scoring.UnexaminedRules
import Cine.Exam.Presence
import Cine.Grading.Audit.BreakerRuns
import Cine.Grading.Review.AllOrNothing
import Cine.Agent.HubRegistry
import Cine.Agent.LanFraming
import Cine.Grading.Sandbox.TranslationUnits
import Cine.Exam.AccessRequests
import Cine.Exam.AgentJoin
import Cine.Agent.SessionController
import Cine.Exam.SessionSeats
import Cine.Agent.BackupRestore
import Cine.Authoring.AttachExam
import Cine.Worker.SlotPool
import Cine.Ide.RoomProposals
import Cine.Exam.Recollect
import Cine.Grading.Investigator.ChallengePhase
import Cine.Course.RosterRuns
import Cine.Grading.Decision.CallOrder
import Cine.Grading.Review.ReapplyPrices
import Cine.Grading.Decision.DefaultThreshold
import Cine.Grading.GradeExport.XmlText
import Cine.Grading.Investigator.TokenBudget
import Cine.Grading.Investigator.CallSignatures
import Cine.Grading.Problem.ScaleCriteria
import Cine.Grading.Review.ReviewGroups
import Cine.Grading.Problem.CriterionKeys
import Cine.Grading.Sampling.SessionMinimum
import Cine.Grading.Investigator.ReadFile
import Cine.Grading.GradeExport.DiffRules
import Cine.Grading.OneShot.LocateEvidence
import Cine.Grading.Investigator.JsonAnswer
import Cine.Agent.VsixTargets
import Cine.Exam.JoinLocks
import Cine.Grading.Gradebook.AbsentStudents
import Cine.Agent.HubMessages
import Cine.Grading.StyleChecks.CppScan
import Cine.Grading.Sandbox.ArchiveAccount
import Cine.Exam.RenderedNames
import Cine.Grading.Rules.SplitMarks
import Cine.Authoring.GenerateQuota
import Cine.Authoring.RulerGenerate
import Cine.Worker.OrderBlind
import Cine.Grading.Review.BulkReview
import Cine.Eval.CompareRuns
import Cine.Eval.ScoreRun
import Cine.Grading.AiProvider.KeywordGrading
import Cine.Grading.GradeExport.ColumnNames
import Cine.Grading.Investigator.OmissionNotes
import Cine.Authoring.CaseDraft
import Cine.Authoring.TrimmedOutput
import Cine.Grading.Sampling.CompletedSample
