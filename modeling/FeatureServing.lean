import FeatureServing.Client.Wiring
import FeatureServing.ClientConfig.Sources
import FeatureServing.LogDirectives
import FeatureServing.Session
import FeatureServing.Proofs.Stitching
import FeatureServing.Proofs.SingleBinding
import FeatureServing.Proofs.TupleOrder
import FeatureServing.Proofs.BatchAgreement
import FeatureServing.Proofs.QueryTokens
import FeatureServing.Proofs.SetUpReading
import FeatureServing.Proofs.InterleavedClient
import FeatureServing.Proofs.SetUpRun
import FeatureServing.Proofs.Servable
import FeatureServing.Proofs.InputChecks
import FeatureServing.Proofs.QueryText
import FeatureServing.Proofs.DocumentRoundTrip
import FeatureServing.Proofs.SkippedGroups
import FeatureServing.Proofs.Reconnecting
import FeatureServing.Proofs.FaithfulText
import FeatureServing.Proofs.KeyEquality
import FeatureServing.Proofs.IntegralFloats
import FeatureServing.Proofs.TimestampDecoding
import FeatureServing.Proofs.KeyOrder
import FeatureServing.Proofs.KeyWalks
import FeatureServing.Proofs.QualifiedNames
import FeatureServing.Proofs.LastWrites
import FeatureServing.Proofs.AskedPositions
import FeatureServing.Proofs.ConsumedKeys
import FeatureServing.Proofs.BatchText
import FeatureServing.Proofs.PlanOrder
import FeatureServing.Proofs.TimestampText
import FeatureServing.Proofs.VectorDecoding
import FeatureServing.Proofs.ResponseVectors
import FeatureServing.Proofs.PreviewLimit
import FeatureServing.Proofs.KeyColumns
import FeatureServing.Proofs.PoolSize
import FeatureServing.Proofs.StoreCounts
import FeatureServing.Proofs.ConnectedStates
