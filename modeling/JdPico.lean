import JdPico.Dma.Callbacks
import JdPico.Flash.Admissible
import JdPico.Flash.DoubleProgram
import JdPico.Flash.EraseFinal
import JdPico.Flash.Region
import JdPico.Flash.Reset
import JdPico.Hid.Mouse
import JdPico.Hid.Reports
import JdPico.I2c.Setup
import JdPico.I2c.Write
import JdPico.Irq.Masking
import JdPico.Irq.Nvic
import JdPico.Main.Led
import JdPico.Main.LogStream
import JdPico.Main.Random
import JdPico.Main.Sleep
import JdPico.Pins.Adc
import JdPico.Pins.Edges
import JdPico.Pins.Pwm
import JdPico.Pins.Registers
import JdPico.Pins.Service
import JdPico.Socket.CloseAtOnce
import JdPico.Socket.Contract
import JdPico.Socket.Failure
import JdPico.Socket.OneBlock
import JdPico.Socket.Ownership
import JdPico.Socket.Serve
import JdPico.Socket.Stream
import JdPico.Spi.Leftover
import JdPico.Spi.Loopback
import JdPico.Spi.Progress
import JdPico.Spi.Protocol
import JdPico.Sws.Closing
import JdPico.Sws.Delivery
import JdPico.Sws.Drain
import JdPico.Sws.Framing
import JdPico.Sws.Loopback
import JdPico.Timer.Micros
import JdPico.Timer.NoLoss
import JdPico.Timer.NotEarly
import JdPico.Timer.Wait
import JdPico.Uart.Driving
import JdPico.Uart.HalfDuplex
import JdPico.Uart.LogPort
import JdPico.Uart.PioPins
import JdPico.Uart.Reception
import JdPico.Uart.WaitHigh
import JdPico.Uart.Wire
import JdPico.Usb.Bridge
import JdPico.Usb.Strings
import JdPico.Wifi.Link
import JdPico.Wifi.Scan
