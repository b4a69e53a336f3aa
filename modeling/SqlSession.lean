import SqlSession.Config.Property
import SqlSession.Config.Text
import SqlSession.Session.Basic
import SqlSession.Proofs.CatalogScope
import SqlSession.Proofs.Custody
import SqlSession.Proofs.SessionLimit
import SqlSession.Proofs.FetchSize
import SqlSession.Proofs.Configuration
import SqlSession.Proofs.BatchUpdates
import SqlSession.Proofs.SettingRanges
import SqlSession.Proofs.ReadOnlyGate
import SqlSession.Proofs.SuppressedFailures
import SqlSession.Proofs.Obtained
import SqlSession.Proofs.StaleLimit
import SqlSession.Proofs.Rollbacks
import SqlSession.Proofs.KeysAndWarnings
import SqlSession.Proofs.EntryPoints
import SqlSession.Proofs.MetricsAccount
import SqlSession.Proofs.HooksUnderMutex
import SqlSession.Proofs.ClauseScan
import SqlSession.Proofs.ClauseExpansion
import SqlSession.Proofs.Literals
import SqlSession.Proofs.SettledText
import SqlSession.Proofs.UnknownClauses
import SqlSession.Proofs.BlankTexts
import SqlSession.Proofs.ValidConfigurations
import SqlSession.Proofs.PropertyNames
import SqlSession.Proofs.PropertyParts
import SqlSession.Proofs.PropertyStrings
import SqlSession.Proofs.ConfigurationPrecedence
import SqlSession.Proofs.ConfigurationText
import SqlSession.Proofs.RowCursor
import SqlSession.Proofs.GeneratedKey
import SqlSession.Proofs.ResultShape
import SqlSession.Proofs.LatencyHistory
import SqlSession.Proofs.FailedBatches
import SqlSession.Proofs.ChainClosing
