import Granum.Flight.CutDelay
import Granum.Flight.GpsReport
import Granum.Flight.GpsSentences
import Granum.Flight.GpsTest
import Granum.Flight.GyroOffset
import Granum.Flight.SensorProvenance
import Granum.Flight.TelemetryFanOut
import Granum.Ground.ChunkFanOut
import Granum.Ground.Exactness
import Granum.Ground.HumidityLog
import Granum.Ground.IdentifierPairing
import Granum.Ground.PollDuplicates
import Granum.Ground.ReflectionPairs
import Granum.Ground.RelayReports
import Granum.Ground.SoundHub
import Granum.Ground.SpectrumHeaders
import Granum.Madgwick.InvSqrt
import Granum.Madgwick.Quaternion
import Granum.Madgwick.TiltBound
import Granum.Omnibus.Bmp280Registers
import Granum.Omnibus.BusMutex
import Granum.Omnibus.InterfaceParams
import Granum.Payload.ListenerInstances
import Granum.Payload.PictureLoss
import Granum.Payload.ServoCommand
import Granum.Spectrometer.Broadcast
import Granum.Spectrometer.BufferOwnership
import Granum.Spectrometer.DecoderFraming
import Granum.Spectrometer.Shutdown
import Granum.Spectrometer.SliderRuns
import Granum.Structure.TreeCoverage
import Granum.Structure.VersionCleanup
