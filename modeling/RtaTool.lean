import RtaTool.Dsp.RingBufferThreads
import RtaTool.Platform.QuiescentSwap
import RtaTool.Platform.EpochStamp
import RtaTool.Measure.CaptureCalls
import RtaTool.Measure.AverageGroupRuns
import RtaTool.Measure.GeneratorRuns
import RtaTool.Measure.AnalyserFreshness
import RtaTool.Measure.AlignmentPolarity
import RtaTool.Measure.EqVerifyRuns
import RtaTool.Measure.SplAlarmWindow
import RtaTool.Measure.SplLedger
import RtaTool.Measure.SplStream
import RtaTool.Export.SplLogAccount
import RtaTool.Measure.CaptureLosses
import RtaTool.Measure.AlignFreshness
import RtaTool.Trace.IrPairing
import RtaTool.Measure.Rt60Pane
import RtaTool.Measure.SplLogApart
import RtaTool.Measure.OutputExclusion
import RtaTool.Export.SplReportAgrees
import RtaTool.Eq.GreedyPlacement
import RtaTool.Measure.EqSession
import RtaTool.Ir.Decay
import RtaTool.Api.RateLimiter
import RtaTool.Measure.CaptureSequencer
import RtaTool.Export.GenSegNames
import RtaTool.Measure.SplHistory
import RtaTool.View.PhaseDecimator
import RtaTool.Export.EqTextExport
import RtaTool.Export.SplReportTags
import RtaTool.Dsp.AverageCount
import RtaTool.Dsp.SpectrumEngine
import RtaTool.Meter.LevelPercentile
import RtaTool.Measure.SplHeadroom
import RtaTool.Measure.SplAlarmRuns
import RtaTool.Platform.RenderedSamples
import RtaTool.Api.ApiBlocks
import RtaTool.Dsp.CrossoverFit
import RtaTool.Dsp.SpatialAverage
import RtaTool.Ir.RelativePolarity
import RtaTool.Dsp.DelayBounds
import RtaTool.Dsp.ResidualTracker
import RtaTool.Export.SplCalibrationRecord
import RtaTool.Platform.RampedGainRuns
import RtaTool.Measure.PhaseUnwrap
import RtaTool.View.TraceDecimator
import RtaTool.Export.SplReportStrip
import RtaTool.Measure.LevelAlign
import RtaTool.Eq.BiquadShapes
import RtaTool.Dsp.Weighting
import RtaTool.Dsp.ButterworthPoles
import RtaTool.Dsp.ExcessPhase
import RtaTool.Measure.SyntheticPacing
import RtaTool.Trace.LibraryStore
import RtaTool.Dsp.FirTargetCurve
import RtaTool.Measure.CandidateGuard
import RtaTool.Export.SplReportHash
import RtaTool.Dsp.CrossoverBandFit
import RtaTool.Gen.WhiteNoise
import RtaTool.Dsp.MtwLayout
import RtaTool.Api.ConditionalGet
import RtaTool.Gen.Mls
