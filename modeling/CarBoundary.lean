import CarBoundary.Lib.Loop
import CarBoundary.Lib.Counter
import CarBoundary.Lib.ToInt
import CarBoundary.Lib.Line
import CarBoundary.Lib.Path
import CarBoundary.Lib.Blocks
import CarBoundary.Lib.Sampling
import CarBoundary.Lib.Receiver
import CarBoundary.Lib.Bits
import CarBoundary.Lib.Machine
import CarBoundary.Lib.Mailbox
import CarBoundary.Lib.Matching
import CarBoundary.Lib.Threads
import CarBoundary.Grid.Basic
import CarBoundary.Grid.Lemmas.Index
import CarBoundary.Grid.Lemmas.Evidence
import CarBoundary.Grid.Lemmas.Frame
import CarBoundary.Grid.Lemmas.Reachable
import CarBoundary.Sensor.Device
import CarBoundary.Sensor.Poll
import CarBoundary.Sensor.Lemmas.Log
import CarBoundary.Sensor.Lemmas.Count
import CarBoundary.Sensor.Lemmas.March
import CarBoundary.Sensor.Lemmas.Landing
import CarBoundary.Sensor.Lemmas.Cubes
import CarBoundary.Sensor.Lemmas.Level
import CarBoundary.Sensor.Lemmas.Patch
import CarBoundary.Sensor.Lemmas.Wall
import CarBoundary.Sensor.Lemmas.Beam
import CarBoundary.Screen.Draw
import CarBoundary.Screen.Palette
import CarBoundary.Screen.Plain
import CarBoundary.Screen.Lemmas.Columns
import CarBoundary.Screen.Lemmas.Pixels
import CarBoundary.Screen.Lemmas.Plain
import CarBoundary.Sensor.Theorems.Counts
import CarBoundary.Sensor.Theorems.Known
import CarBoundary.Sensor.Theorems.Classify
import CarBoundary.Sensor.Theorems.Sight
import CarBoundary.Sensor.Theorems.March
import CarBoundary.Sensor.Theorems.Columns
import CarBoundary.Sensor.Theorems.Flat
import CarBoundary.Screen.Theorems.Order
import CarBoundary.Screen.Theorems.Picture
import CarBoundary.Screen.Theorems.Visible
import CarBoundary.Screen.Theorems.Palette
import CarBoundary.Camera.Stream
import CarBoundary.Camera.Start
import CarBoundary.Camera.Footage
import CarBoundary.Camera.Unpack
import CarBoundary.Camera.Lemmas.Stream
import CarBoundary.Camera.Lemmas.Start
import CarBoundary.Camera.Lemmas.Tracking
import CarBoundary.Camera.Lemmas.Recovery
import CarBoundary.Camera.Lemmas.Footage
import CarBoundary.Camera.Lemmas.Unpack
import CarBoundary.Camera.Theorems.Stream
import CarBoundary.Camera.Theorems.Recovery
import CarBoundary.Camera.Theorems.Unpack
import CarBoundary.Sync.Ring
import CarBoundary.Sync.RunLoop
import CarBoundary.Sync.Lemmas.Session
import CarBoundary.Sync.Lemmas.Ready
import CarBoundary.Sync.Lemmas.Linked
import CarBoundary.Sync.Lemmas.Progress
import CarBoundary.Sync.Lemmas.Contained
import CarBoundary.Sync.Lemmas.RunLoop
import CarBoundary.Sync.Lemmas.OneClient
import CarBoundary.Sync.Theorems.Ring
import CarBoundary.Sync.Theorems.Pictures
import CarBoundary.Sync.Theorems.Sizes
import CarBoundary.Sync.Theorems.RunLoop
import CarBoundary.Camera.Command
import CarBoundary.Camera.Lemmas.Command
import CarBoundary.Program.Main
import CarBoundary.Program.Lemmas.Main
import CarBoundary.Program.Feed
import CarBoundary.Program.Theorems.Main
import CarBoundary.Lib.Tags
import CarBoundary.Camera.Theorems.Command
import CarBoundary.Camera.Transfers
import CarBoundary.Camera.Lemmas.Transfers
import CarBoundary.Camera.Theorems.Transfers
import CarBoundary.Lib.ShiftBuffer
import CarBoundary.Camera.Bayer
import CarBoundary.Camera.Lemmas.Bayer
import CarBoundary.Camera.Theorems.Bayer
import CarBoundary.Lib.Links
import CarBoundary.Camera.Devices
import CarBoundary.Camera.Lemmas.Subdevices
import CarBoundary.Camera.Lemmas.Devices
import CarBoundary.Camera.Theorems.Devices
import CarBoundary.Camera.Uyvy
import CarBoundary.Camera.Lemmas.Uyvy
import CarBoundary.Camera.Theorems.Uyvy
import CarBoundary.Sync.Video
import CarBoundary.Sync.Lemmas.Video
import CarBoundary.Sync.Theorems.Video
import CarBoundary.Sync.Lemmas.VideoFrames
