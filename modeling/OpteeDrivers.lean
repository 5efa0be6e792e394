import OpteeDrivers.Rk322x.RoundTrip
import OpteeDrivers.Rk322x.ManyCores
import OpteeDrivers.Rk322x.Bringup
import OpteeDrivers.Dra7.CachedBase
import OpteeDrivers.Dra7.Trng
import OpteeDrivers.Hi16xx.Fifo
import OpteeDrivers.Stm.Console
import OpteeDrivers.Stm.ResetLate
